import Switchboard.Proofs.Session.Traffic
import Switchboard.Session.Future

/-!
# What a session puts on the wire

How a call ended decides what has been handed to the transport about it: the request, and behind it
one cancellation if the call passed its deadline or was cancelled on this side
(`View.Sound.leaves`).
Nothing else is ever handed over, because every message of a session is about a call
(`Run.subject_of_handed`). `Run.wire_of_ending` puts both together.

A future that is dropped while its call waits cancels the call as its owner would
(`Run.traffic_drop`).
-/

namespace Switchboard

open History (issue? ending?)

/-- The message that was handed to the transport, whether it was taken or not. -/
def Event.handed? : Event → Option Message
  | .sent m | .refused m _ => some m
  | .issued _ _ _ | .settled _ _ _ | .delivered _ _ => none

theorem Link.handed?_carry (l : Link) (m : Message) : (l.carry m).handed? = some m := by
  cases l <;> rfl

namespace View.Sound

variable {id : RequestId} {v : View} {c : Call} {expiry : Option Nat}

/-- What has been handed over about a call that waits is its request. -/
theorem traffic_of_waiting (sound : v.Sound id) (hi : v.issue? = some (c, expiry))
    (he : v.ending? = none) : v.traffic = [c.spec.sent id] := by
  cases sound with
  | unissued => exact absurd hi nofun
  | waiting =>
    obtain ⟨rfl, rfl⟩ := Prod.mk.inj (Option.some.inj hi)
    rfl
  | ended => exact absurd he nofun

/-- What has been handed over about a call that has ended depends on how it did. -/
theorem leaves (sound : v.Sound id) (hi : v.issue? = some (c, expiry)) {e : Ending}
    (he : v.ending? = some e) : e.Leaves id c.spec v.traffic := by
  cases sound with
  | unissued => exact absurd hi nofun
  | waiting => exact absurd he nofun
  | ended c' expiry' e' left =>
    obtain ⟨rfl, rfl⟩ := Prod.mk.inj (Option.some.inj hi)
    obtain rfl := Option.some.inj he
    exact left

/-- A message that has been handed over is the request of a call, or tells the peer that the call
has ended. -/
theorem handed_cases (sound : v.Sound id) {event : Event} {m : Message} (he : event ∈ v.traffic)
    (hm : event.handed? = some m) :
    ∃ c expiry, v.issue? = some (c, expiry) ∧
      (m = .request (c.spec.request id) ∨
        ∃ reason, v.ending?.bind Ending.notice? = some reason ∧
          m = Cancellation.toMessage ⟨id, reason⟩) := by
  cases sound with
  | unissued => exact absurd he List.not_mem_nil
  | waiting c expiry =>
    obtain rfl := List.mem_singleton.1 he
    exact ⟨c, expiry, rfl, .inl (Option.some.inj hm).symm⟩
  | ended c expiry e left =>
    refine ⟨c, expiry, rfl, ?_⟩
    cases e with
    | refused reason =>
      obtain rfl := left
      obtain rfl := List.mem_singleton.1 he
      exact .inl (Option.some.inj hm).symm
    | answered o | withdrawn reason | disconnected =>
      obtain rfl := left
      obtain rfl := List.mem_singleton.1 he
      exact .inl (Option.some.inj hm).symm
    | cancelled reason | expired =>
      obtain ⟨l, rfl⟩ := left
      rcases List.mem_cons.1 he with rfl | he
      · exact .inl (Option.some.inj hm).symm
      · obtain rfl := List.mem_singleton.1 he
        rw [Link.handed?_carry] at hm
        exact .inr ⟨_, rfl, (Option.some.inj hm).symm⟩

end View.Sound

namespace Session

variable {config : SessionConfig} {h : List Moment} {s s' : Session} {id : RequestId} {c : Call}
  {expiry : Option Nat} {m : Message}

/-- The messages that have been handed to the transport. -/
def handed (s : Session) : List Message :=
  s.log.filterMap Event.handed?

/-- What is sent has been handed over. -/
theorem sent_sublist_handed (s : Session) : s.sent.Sublist s.handed := by
  rw [sent, handed]
  induction s.log with
  | nil => exact .slnil
  | cons e log ih =>
    cases e with
    | sent m => exact ih.cons_cons m
    | refused m reason => exact ih.cons m
    | issued | settled | delivered => exact ih

/-- What is handed over is sent, if the transport takes every message. -/
theorem sent_eq_handed (ha : s.Accepted) : s.sent = s.handed := by
  refine List.filterMap_congr fun e he => ?_
  cases e with
  | refused m reason => exact absurd he (ha m reason)
  | sent | issued | settled | delivered => rfl

/-- **Every message that a session hands over is about a call.** -/
theorem Run.subject_of_handed (run : Run { config } h s) (hm : m ∈ s.handed) :
    m.subject? ≠ none := by
  induction run with
  | start => exact absurd hm List.not_mem_nil
  | @step h s s' a run step ih =>
    obtain ⟨events, hlog, hrec⟩ := step.ticks.log
    rw [handed, hlog, List.filterMap_append, List.mem_append] at hm
    rcases hm with hm | hm
    · exact ih hm
    · obtain ⟨e, he, hem⟩ := List.mem_filterMap.1 hm
      have hrec' := hrec e he
      cases e with
      | sent m' | refused m' reason =>
        obtain rfl := Option.some.inj hem
        exact hrec'
      | issued | settled | delivered => exact absurd hem nofun

/-- A message about a call is in the traffic of the call. -/
theorem mem_traffic_of_handed (hm : m ∈ s.handed) (hsub : m.subject? = some id) :
    ∃ e ∈ s.traffic id, e.handed? = some m := by
  obtain ⟨e, he, hem⟩ := List.mem_filterMap.1 hm
  refine ⟨e, List.mem_filter.2 ⟨he, ?_⟩, hem⟩
  cases e with
  | sent m' | refused m' reason =>
    obtain rfl := Option.some.inj hem
    exact decide_eq_true hsub
  | issued | settled | delivered => exact absurd hem nofun

/-- **A future that is dropped while its call waits cancels the call**, and the peer is told why. -/
theorem Run.traffic_drop (run : Run { config } h s) (hi : issue? id h = some (c, expiry))
    (he : ending? id h = none) (channel : Channel)
    (few : ((CallFuture.waiting id channel).drop s).calls.length ≤ 2 ^ 64) :
    ∃ l : Link, ((CallFuture.waiting id channel).drop s).traffic id =
      [c.spec.sent id, l.carry (Cancellation.toMessage ⟨id, some "caller went away"⟩)] := by
  have run' : Run { config } _ ((CallFuture.waiting id channel).drop s) :=
    run.step (.cancelCall id (some "caller went away"))
  have sound := (run'.sound (run'.few_iff.2 few)).views id
  refine @View.Sound.leaves id _ c expiry sound ?_ (.cancelled (some "caller went away")) ?_
  · rw [view, List.append_assoc, History.issue?_append, hi, Option.some_or]
  · rw [view, List.append_assoc, History.ending?_append_of_issued hi, he, Option.none_or, stimuli,
      List.findSome?_append, List.findSome?_cons, Moment.ending?, if_pos rfl, Option.some_or]

/-- **How a call ended decides what has been handed to the transport about it.** Its request is sent
once, or refused once. A cancellation follows it, once, if the call passed its deadline or was
cancelled on this side, also by dropping its future, and otherwise nothing. A session hands over
nothing else, and the peer reads every cancellation as it was meant. -/
theorem Run.wire_of_ending (run : Run { config } h s) (few : Few h) :
    (∀ id c expiry, issue? id h = some (c, expiry) →
      s.settlements id = ((ending? id h).map fun e => (c, e.outcome)).toList ∧
      match ending? id h with
      | some (.refused reason) => s.traffic id = [.refused (.request (c.spec.request id)) reason]
      | some (.cancelled reason) => ∃ l : Link, s.traffic id =
          [c.spec.sent id, l.carry (Cancellation.toMessage ⟨id, reason⟩)]
      | some .expired => ∃ l : Link, s.traffic id =
          [c.spec.sent id, l.carry (Cancellation.toMessage ⟨id, some "request timed out"⟩)]
      | none | some (.answered _) | some (.withdrawn _) | some .disconnected =>
        s.traffic id = [c.spec.sent id]) ∧
    (∀ id c expiry channel, issue? id h = some (c, expiry) → ending? id h = none →
      ((CallFuture.waiting id channel).drop s).calls.length ≤ 2 ^ 64 →
      ∃ l : Link, ((CallFuture.waiting id channel).drop s).traffic id =
        [c.spec.sent id, l.carry (Cancellation.toMessage ⟨id, some "caller went away"⟩)]) ∧
    ∀ m ∈ s.handed, ∃ id c expiry, issue? id h = some (c, expiry) ∧
      (m = .request (c.spec.request id) ∨
        ∃ reason n, (ending? id h).bind Ending.notice? = some reason ∧ m = .notification n ∧
          n = Cancellation.toNotification ⟨id, reason⟩ ∧ n.cancellation? = some ⟨id, reason⟩) := by
  have sound := run.sound few
  refine ⟨fun id c expiry hi => ⟨(sound.views id).settlements hi, ?_⟩,
    fun id c expiry channel hi he few' => run.traffic_drop hi he channel few', fun m hm => ?_⟩
  · cases he : ending? id h with
    | none => exact (sound.views id).traffic_of_waiting hi he
    | some e =>
      have left := (sound.views id).leaves hi he
      cases e with
      | refused | answered | withdrawn | cancelled | expired | disconnected => exact left
  · obtain ⟨id, hsub⟩ := Option.ne_none_iff_exists'.1 (run.subject_of_handed hm)
    obtain ⟨event, hevent, hem⟩ := mem_traffic_of_handed hm hsub
    obtain ⟨c, expiry, hi, hreq | ⟨reason, hn, hm'⟩⟩ := (sound.views id).handed_cases hevent hem
    · exact ⟨id, c, expiry, hi, .inl hreq⟩
    · exact ⟨id, c, expiry, hi, .inr ⟨reason, _, hn, hm', rfl,
        Cancellation.cancellation?_toNotification _⟩⟩

/-- A call that passes its deadline. -/
theorem wire_of_ending_expired :
    ∃ h s, Run {} h s ∧ Few h ∧
      issue? (.number 1) h = some ({ spec := { method := "ping", timeout := some 5 } }, some 5) ∧
      ∃ l : Link, s.traffic (.number 1) =
        [.sent (.request ⟨.number 1, "ping", none⟩),
          l.carry (Cancellation.toMessage ⟨.number 1, some "request timed out"⟩)] := by
  let call : Call := { spec := { method := "ping", timeout := some 5 } }
  have run : Run {} _ _ :=
    ((Run.start.step (.issue call)).step (.wait 5)).step (step_checkTimeouts _)
  have few : 1 ≤ 2 ^ 64 := by decide
  have main := (run.wire_of_ending few).1 (.number 1) call (some 5) rfl
  exact ⟨_, _, run, few, rfl, main.2⟩

end Session
end Switchboard
