import Switchboard.Session.Basic

/-!
# Runs of a session

An `Action` is one use of a session, by its owner or for its peer, or a change around it: time
passes, the transport changes. `Session.Step` says what an action makes of a session; where it
settles several calls it may do so in any order. `Session.Run` is a sequence of actions together
with its history, a list of `Moment`s: what reached the session and could end a call, and the time
that passed, interleaved with what the session recorded.
-/

namespace Switchboard

/-- A use of a session, or a change around it. -/
inductive Action
  | issue (c : Call)
  /-- A call that somebody waits for. -/
  | call (spec : CallSpec)
  | respond (r : Response)
  | cancelled (c : Cancellation)
  | cancelCall (id : RequestId) (reason : Option String)
  | checkTimeouts
  | close
  | beginInbound (id : RequestId)
  | finishInbound (id : RequestId) (h : Handle)
  | handle (m : Message)
  /-- Time passes. -/
  | wait (millis : Nat)
  /-- The transport is, and will be at the next messages, as said. -/
  | relink (link : Link) (upcoming : List Link)

/-- What could end a call, what a session records, and the time that passes. -/
inductive Moment
  /-- An answer arrives. -/
  | answered (r : Response)
  /-- The peer cancels, and no work is registered under its identifier. -/
  | withdrawn (c : Cancellation)
  /-- This side cancels. -/
  | cancelled (id : RequestId) (reason : Option String)
  /-- A sweep begins at an instant. -/
  | swept (now : Nat)
  /-- The close begins. -/
  | closed
  /-- Time has passed; it ends no call by itself. -/
  | waited (millis : Nat)
  | event (e : Event)

/-- What a session records in a moment. -/
def Moment.event? : Moment → Option Event
  | .event e => some e
  | .answered _ | .withdrawn _ | .cancelled _ _ | .swept _ | .closed | .waited _ => none

namespace Session

/-- What becomes of a session by an action. -/
inductive Step (s : Session) : Action → Session → Prop
  | issue (c : Call) : Step s (.issue c) (s.issue c).2
  | call (spec : CallSpec) : Step s (.call spec) (s.call spec).2.2
  | respond (r : Response) : Step s (.respond r) (s.respond r)
  | cancelled (c : Cancellation) : Step s (.cancelled c) (s.cancelled c)
  | cancelCall (id : RequestId) (reason : Option String) :
      Step s (.cancelCall id reason) (s.cancelCall id reason).2
  | checkTimeouts {order : List RequestId} (h : order.Perm s.overdue) :
      Step s .checkTimeouts (s.checkTimeoutsIn order).2
  | close {order : List (RequestId × Call)} (h : order.Perm s.pending.toList) :
      Step s .close (s.disconnectAll order).cancelInbound
  | beginInbound (id : RequestId) : Step s (.beginInbound id) (s.beginInbound id).2
  | finishInbound (id : RequestId) (h : Handle) :
      Step s (.finishInbound id h) (s.finishInbound id h)
  | handle (m : Message) : Step s (.handle m) (s.handle m).2
  | wait (millis : Nat) : Step s (.wait millis) { s with clock := s.clock + millis }
  | relink (link : Link) (upcoming : List Link) :
      Step s (.relink link upcoming) { s with link, upcoming }

/-- The sweep in the order of the table is a step. -/
theorem step_checkTimeouts (s : Session) : Step s .checkTimeouts s.checkTimeouts.2 :=
  .checkTimeouts (.refl _)

/-- The close in the order of the table is a step. -/
theorem step_close (s : Session) : Step s .close s.close :=
  .close (.refl _)

/-- How a cancellation by the peer reaches the own calls: not at all if work takes it. -/
def withdrawal (s : Session) (c : Cancellation) : List Moment :=
  if s.inbound.isRegistered c.id then [] else [.withdrawn c]

/-- What an action brings that could end a call, or how much time. -/
def stimuli (s : Session) : Action → List Moment
  | .respond r | .handle (.response r) => [.answered r]
  | .cancelled c => s.withdrawal c
  | .handle (.notification n) => n.cancellation?.elim [] s.withdrawal
  | .cancelCall id reason => [.cancelled id reason]
  | .checkTimeouts => [.swept s.clock]
  | .close => [.closed]
  | .wait millis => [.waited millis]
  | .handle (.request _) | .issue _ | .call _ | .beginInbound _ | .finishInbound _ _
  | .relink _ _ => []

/-- A stimulus is nothing that the session records. -/
theorem event?_of_mem_stimuli {s : Session} {a : Action} {m : Moment} (hm : m ∈ s.stimuli a) :
    m.event? = none := by
  have hw : ∀ c, m ∈ s.withdrawal c → m.event? = none := fun c hc => by
    rw [withdrawal] at hc
    split at hc
    · exact absurd hc List.not_mem_nil
    · rw [List.mem_singleton.1 hc, Moment.event?]
  cases a with
  | cancelled c => exact hw c hm
  | handle msg =>
    cases msg with
    | request r => exact absurd hm List.not_mem_nil
    | response r => rw [List.mem_singleton.1 hm, Moment.event?]
    | notification n =>
      rw [stimuli] at hm
      cases hn : n.cancellation? with
      | none => rw [hn] at hm; exact absurd hm List.not_mem_nil
      | some c => rw [hn] at hm; exact hw c hm
  | issue | call | beginInbound | finishInbound | relink => exact absurd hm List.not_mem_nil
  | respond | cancelCall | checkTimeouts | close | wait =>
    rw [List.mem_singleton.1 hm, Moment.event?]

/-- A sequence of actions, with its history. -/
inductive Run (s₀ : Session) : List Moment → Session → Prop
  | start : Run s₀ [] s₀
  | step {h : List Moment} {s s' : Session} {a : Action} (run : Run s₀ h s) (step : Step s a s') :
      Run s₀ (h ++ s.stimuli a ++ (s'.log.drop s.log.length).map .event) s'

end Session
end Switchboard
