import Mathlib.Data.List.Basic
import Switchboard.Proofs.Session.Outcome

/-!
# What a session has sent about a call

A sound session has sent nothing about an identifier, or the request of the call that was issued
under it, or that request and then its cancellation (`Sound.about`). What it has sent in the end
depends on how the call ended: `Sound.about_of_accepted`.
-/

namespace Switchboard

open History (issued issue? ending?)

/-- The request that a message is. -/
def Message.request? : Message → Option Request
  | .request r => some r
  | .notification _ | .response _ => none

/-- The identifier under which a call is issued. -/
def Event.call? : Event → Option RequestId
  | .issued id _ _ => some id
  | .sent _ | .refused _ _ | .settled _ _ _ | .delivered _ _ => none

namespace Session

variable {h : List Moment} {s s' : Session} {id : RequestId} {c : Call} {expiry : Option Nat}

/-- The identifiers of the calls that have been issued. -/
def calls (s : Session) : List RequestId :=
  s.log.filterMap Event.call?

/-- What has been sent about a call or request. -/
def about (s : Session) (id : RequestId) : List Message :=
  s.sent.filter fun m => m.subject? = some id

/-- The transport has taken every message. -/
def Accepted (s : Session) : Prop :=
  ∀ m reason, .refused m reason ∉ s.log

/-- A history holds what the session has recorded, in order. -/
theorem Run.events_eq {config : SessionConfig} (run : Run { config } h s) :
    h.filterMap Moment.event? = s.log := by
  induction run with
  | start => rfl
  | @step h s s' a run step ih =>
    obtain ⟨events, hlog, -⟩ := step.ticks.log
    have hstimuli : (s.stimuli a).filterMap Moment.event? = [] :=
      List.filterMap_eq_nil_iff.2 fun m hm => event?_of_mem_stimuli hm
    have hevents : (events.map Moment.event).filterMap Moment.event? = events := by
      rw [List.filterMap_map]
      exact List.filterMap_some
    rw [List.filterMap_append, List.filterMap_append, hstimuli, hlog, List.drop_left, hevents, ih,
      List.append_nil]

/-- A history issues the calls that the session has recorded. -/
theorem Run.issued_eq {config : SessionConfig} (run : Run { config } h s) :
    issued h = s.calls := by
  rw [calls, ← run.events_eq, List.filterMap_filterMap, issued]
  congr 1
  funext m
  cases m with
  | event e => cases e <;> rfl
  | answered | withdrawn | cancelled | swept | closed | waited => rfl

/-- Whether too many calls have been issued can be read off the record. -/
theorem Run.few_iff {config : SessionConfig} (run : Run { config } h s) :
    Few h ↔ s.calls.length ≤ 2 ^ 64 := by
  rw [Few, run.issued_eq]

/-- A call that has been issued is on record. -/
theorem Run.mem_log_of_issue? {config : SessionConfig} (run : Run { config } h s)
    (hi : issue? id h = some (c, expiry)) : .issued id c expiry ∈ s.log := by
  rw [← run.events_eq]
  exact List.mem_filterMap.2 ⟨_, History.mem_of_issue? hi, rfl⟩

/-- What has been sent about a call is the part of its traffic that was not refused. -/
theorem about_eq (s : Session) (id : RequestId) :
    s.about id = (s.traffic id).filterMap Event.sent? := by
  rw [about, traffic, sent, List.filter_filterMap, List.filterMap_filter]
  congr 1
  funext e
  cases e with
  | sent m => by_cases hm : m.subject? = some id <;> simp [Event.sent?, Event.carries, hm]
  | issued | refused | settled | delivered => simp [Event.sent?]

/-- **The peer is sent the request of a call before its cancellation, each at most once**, and
nothing else about the call. -/
theorem Sound.about (hs : Sound h s) (id : RequestId) :
    s.about id = [] ∨ ∃ c expiry, issue? id h = some (c, expiry) ∧
      (s.about id = [.request (c.spec.request id)] ∨ ∃ reason, s.about id =
        [.request (c.spec.request id), Cancellation.toMessage ⟨id, reason⟩]) := by
  have sound := hs.views id
  have hi : issue? id h = (view h s id).issue? := rfl
  have ht : s.about id = (view h s id).traffic.filterMap Event.sent? := about_eq s id
  rw [hi, ht]
  generalize view h s id = v at sound
  cases sound with
  | unissued => exact .inl rfl
  | waiting c expiry => exact .inr ⟨c, expiry, rfl, .inl rfl⟩
  | ended c expiry e left =>
    cases e with
    | refused reason =>
      obtain rfl := left
      exact .inl rfl
    | answered o | withdrawn reason | disconnected =>
      obtain rfl := left
      exact .inr ⟨c, expiry, rfl, .inl rfl⟩
    | cancelled reason | expired =>
      obtain ⟨l, rfl⟩ := left
      refine .inr ⟨c, expiry, rfl, ?_⟩
      cases l with
      | accepting => exact .inr ⟨_, rfl⟩
      | refusing r => exact .inl rfl

/-- A session whose transport has taken every message has sent the request of each call, and its
cancellation if the peer is told how the call ended. -/
theorem Sound.about_of_accepted (hs : Sound h s) (ha : s.Accepted)
    (hi : issue? id h = some (c, expiry)) :
    s.about id = .request (c.spec.request id) ::
      ((ending? id h).bind Ending.notice?).toList.map fun reason =>
        Cancellation.toMessage ⟨id, reason⟩ := by
  have sound := hs.views id
  have hi' : (view h s id).issue? = some (c, expiry) := hi
  have he : ending? id h = (view h s id).ending? := rfl
  have ht : s.about id = (view h s id).traffic.filterMap Event.sent? := about_eq s id
  have hr : ∀ m reason, .refused m reason ∉ (view h s id).traffic := fun m reason hm =>
    ha m reason (List.mem_of_mem_filter hm)
  rw [he, ht]
  generalize view h s id = v at sound hi' hr
  cases sound with
  | unissued => exact absurd hi' (by simp)
  | waiting c' expiry' =>
    obtain ⟨rfl, rfl⟩ := Prod.mk.inj (Option.some.inj hi')
    rfl
  | ended c' expiry' e left =>
    obtain ⟨rfl, rfl⟩ := Prod.mk.inj (Option.some.inj hi')
    cases e with
    | refused reason =>
      obtain rfl := left
      exact absurd List.mem_cons_self (hr _ _)
    | answered o | withdrawn reason | disconnected =>
      obtain rfl := left
      rfl
    | cancelled reason | expired =>
      obtain ⟨l, rfl⟩ := left
      cases l with
      | accepting => rfl
      | refusing r => exact absurd (List.mem_cons_of_mem _ List.mem_cons_self) (hr _ _)

/-- A call that has been settled has ended, and is off the table. -/
theorem Sound.of_settlement (hs : Sound h s) {outcome : CallOutcome}
    (hm : (c, outcome) ∈ s.settlements id) :
    ∃ expiry e, issue? id h = some (c, expiry) ∧ ending? id h = some e ∧ outcome = e.outcome ∧
      s.pending.get? id = none := by
  have sound := hs.views id
  have hm' : (c, outcome) ∈ (view h s id).settlements := hm
  have hi : issue? id h = (view h s id).issue? := rfl
  have he : ending? id h = (view h s id).ending? := rfl
  have hp : s.pending.get? id = (view h s id).pending? := rfl
  rw [hi, he, hp]
  generalize view h s id = v at sound hm'
  cases sound with
  | unissued => exact absurd hm' List.not_mem_nil
  | waiting c expiry => exact absurd hm' List.not_mem_nil
  | ended c' expiry e left =>
    obtain ⟨rfl, rfl⟩ := Prod.mk.inj (List.mem_singleton.1 hm')
    exact ⟨expiry, e, rfl, rfl, rfl, rfl⟩

/-- The requests with an identifier that have been sent: none, or that of the call. -/
theorem Sound.requests (hs : Sound h s) (id : RequestId) :
    (s.sent.filterMap Message.request?).filter (fun r => r.id = id) = [] ∨
      ∃ c expiry, issue? id h = some (c, expiry) ∧
        (s.sent.filterMap Message.request?).filter (fun r => r.id = id) =
          [c.spec.request id] := by
  have he : (s.sent.filterMap Message.request?).filter (fun r => r.id = id) =
      (s.about id).filterMap Message.request? := by
    rw [Session.about, List.filter_filterMap, List.filterMap_filter]
    congr 1
    funext m
    cases m with
    | request r => by_cases hid : r.id = id <;> simp [Message.request?, Message.subject?, hid]
    | notification n | response r => simp [Message.request?]
  rw [he]
  rcases hs.about id with ha | ⟨c, expiry, hi, ha | ⟨reason, ha⟩⟩
  · exact .inl (by rw [ha]; rfl)
  · exact .inr ⟨c, expiry, hi, by rw [ha]; rfl⟩
  · exact .inr ⟨c, expiry, hi, by rw [ha]; rfl⟩

end Session
end Switchboard
