import Mathlib.Algebra.Order.Ring.Nat
import Switchboard.Proofs.Session.Run

/-!
# How a history says that a call ended

A call may end in six ways, its `Ending`s. `ending?` takes the first moment after the issue of the
call that ends it, without looking at any table; `Ending.Cause` says what such a moment is,
`Ending.outcome` what the caller is then told, and `Ending.Leaves` what has been handed to the
transport about the call.

The other side are a session's own records: `settlements` lists the callbacks of a call that have
run, `traffic` the messages about a call.
-/

namespace Switchboard

/-- The request of a call, sent. -/
def CallSpec.sent (spec : CallSpec) (id : RequestId) : Event :=
  .sent (.request (spec.request id))

/-- How a call ended. -/
inductive Ending
  /-- The transport refused its request. -/
  | refused (reason : String)
  | answered (o : Outcome)
  /-- The peer cancelled it. -/
  | withdrawn (reason : Option String)
  /-- This side cancelled it. -/
  | cancelled (reason : Option String)
  | expired
  | disconnected

namespace Ending

/-- What the caller is told. -/
def outcome : Ending → CallOutcome
  | refused reason => .error (.transport reason)
  | answered (.result v) => .ok v
  | answered (.failure e) => .error (.remote e)
  | withdrawn reason | cancelled reason => .error (.cancelled reason)
  | expired => .error .timeout
  | disconnected => .error .disconnected

/-- The reason that the peer is told, if it is told that the call has ended. -/
def notice? : Ending → Option (Option String)
  | cancelled reason => some reason
  | expired => some (some "request timed out")
  | refused _ | answered _ | withdrawn _ | disconnected => none

/-- Which messages about a call have been handed to the transport once it has ended: its request,
and then a cancellation if the peer is told. -/
def Leaves (id : RequestId) (spec : CallSpec) : Ending → List Event → Prop
  | refused reason, traffic => traffic = [.refused (.request (spec.request id)) reason]
  | e, traffic =>
    match e.notice? with
    | none => traffic = [spec.sent id]
    | some reason => ∃ l : Link,
        traffic = [spec.sent id, l.carry (Cancellation.toMessage ⟨id, reason⟩)]

/-- Callers are told a result, or an error of the peer, by an answer only. -/
theorem eq_answered {e : Ending} {o : Outcome} (h : e.outcome = (answered o).outcome) :
    e = answered o := by
  cases e with
  | answered o' => cases o <;> cases o' <;> simp_all [outcome]
  | refused | withdrawn | cancelled | expired | disconnected => cases o <;> simp [outcome] at h

/-- The peer is told the reason that the caller is told, or that the call timed out. -/
theorem outcome_of_notice {e : Ending} {reason : Option String} (h : e.notice? = some reason) :
    e.outcome = .error (.cancelled reason) ∨
      e.outcome = .error .timeout ∧ reason = some "request timed out" := by
  cases e with
  | cancelled reason' =>
    obtain rfl := Option.some.inj h
    exact .inl rfl
  | expired =>
    obtain rfl := Option.some.inj h
    exact .inr ⟨rfl, rfl⟩
  | refused | answered | withdrawn | disconnected => exact absurd h nofun

/-- What ends a call in a certain way. -/
def Cause (id : RequestId) : Ending → Moment → Prop
  | .refused reason, m => ∃ r : Request, m = .event (.refused (.request r) reason)
  | .answered o, m => m = .answered ⟨id, o⟩
  | .withdrawn reason, m => m = .withdrawn ⟨id, reason⟩
  | .cancelled reason, m => m = .cancelled id reason
  | .expired, m => ∃ now, m = .swept now
  | .disconnected, m => m = .closed

end Ending

/-! ### Moments -/

namespace Moment

/-- The call that is issued under an identifier, with its deadline. -/
def issue? (id : RequestId) : Moment → Option (Call × Option Nat)
  | .event (.issued id' c expiry) => if id' = id then some (c, expiry) else none
  | _ => none

/-- How a moment ends a call that waits under an identifier with a deadline, if it does. -/
def ending? (id : RequestId) (expiry : Option Nat) : Moment → Option Ending
  | .answered r => if r.id = id then some (.answered r.outcome) else none
  | .withdrawn c => if c.id = id then some (.withdrawn c.reason) else none
  | .cancelled id' reason => if id' = id then some (.cancelled reason) else none
  | .swept now => if expiry.any (· ≤ now) then some .expired else none
  | .closed => some .disconnected
  | .event (.refused (.request r) reason) => if r.id = id then some (.refused reason) else none
  | .waited _ | .event _ => none

theorem cause_of_ending? {m : Moment} {id : RequestId} {expiry : Option Nat} {e : Ending}
    (h : m.ending? id expiry = some e) : e.Cause id m := by
  cases m with
  | answered r =>
    obtain ⟨rfl, ⟨⟩⟩ := Option.ite_none_right_eq_some.1 h
    rfl
  | withdrawn c =>
    obtain ⟨rfl, ⟨⟩⟩ := Option.ite_none_right_eq_some.1 h
    rfl
  | cancelled id' reason =>
    obtain ⟨rfl, ⟨⟩⟩ := Option.ite_none_right_eq_some.1 h
    rfl
  | swept now =>
    obtain ⟨-, ⟨⟩⟩ := Option.ite_none_right_eq_some.1 h
    exact ⟨now, rfl⟩
  | closed =>
    obtain rfl := Option.some.inj h
    rfl
  | waited millis => exact absurd h nofun
  | event ev =>
    cases ev with
    | refused m reason =>
      cases m with
      | request r =>
        obtain ⟨-, ⟨⟩⟩ := Option.ite_none_right_eq_some.1 h
        exact ⟨r, rfl⟩
      | notification n => exact absurd h nofun
      | response r => exact absurd h nofun
    | issued | sent | settled | delivered => exact absurd h nofun

end Moment

/-! ### Histories -/

namespace History

/-- The identifiers under which calls have been issued. -/
def issued (h : List Moment) : List RequestId :=
  h.filterMap fun m =>
    match m with
    | .event (.issued id _ _) => some id
    | _ => none

/-- The call that was issued under an identifier, with its deadline. -/
def issue? (id : RequestId) (h : List Moment) : Option (Call × Option Nat) :=
  h.findSome? (Moment.issue? id)

/-- How the call under an identifier ended: the first ending after it was issued. -/
def ending? (id : RequestId) : List Moment → Option Ending
  | [] => none
  | m :: h =>
    match m.issue? id with
    | some (_, expiry) => h.findSome? (Moment.ending? id expiry)
    | none => ending? id h

/-- How much time has passed. -/
def elapsed (h : List Moment) : Nat :=
  (h.map fun m =>
    match m with
    | .waited millis => millis
    | _ => 0).sum

theorem issued_append (h h' : List Moment) : issued (h ++ h') = issued h ++ issued h' :=
  List.filterMap_append

theorem mem_issued {id : RequestId} {h : List Moment} : id ∈ issued h ↔ issue? id h ≠ none := by
  rw [issue?, ne_eq, List.findSome?_eq_none_iff, issued, List.mem_filterMap]
  simp only [Classical.not_forall, exists_prop]
  refine exists_congr fun m => and_congr_right fun _ => ?_
  unfold Moment.issue?
  split <;> simp

theorem issue?_append (id : RequestId) (h h' : List Moment) :
    issue? id (h ++ h') = (issue? id h).or (issue? id h') :=
  List.findSome?_append

/-- What has not been issued has not ended. -/
theorem ending?_eq_none {id : RequestId} {h : List Moment} (hi : issue? id h = none) :
    ending? id h = none := by
  induction h with
  | nil => rfl
  | cons m h ih =>
    rw [issue?, List.findSome?_cons] at hi
    split at hi
    · simp at hi
    · rename_i hm
      rw [ending?, hm]
      exact ih hi

/-- What comes after the issue of a call ends it unless it has ended before. -/
theorem ending?_append_of_issued {id : RequestId} {h : List Moment} {c : Call}
    {expiry : Option Nat} (hi : issue? id h = some (c, expiry)) (h' : List Moment) :
    ending? id (h ++ h') = (ending? id h).or (h'.findSome? (Moment.ending? id expiry)) := by
  induction h with
  | nil => simp [issue?] at hi
  | cons m h ih =>
    rw [issue?, List.findSome?_cons] at hi
    rw [List.cons_append, ending?, ending?]
    split at hi
    · rename_i hm
      obtain rfl := Option.some.inj hi
      rw [hm]
      exact List.findSome?_append
    · rename_i hm
      rw [hm]
      exact ih hi

/-- What comes before the issue of a call has no say in how it ends. -/
theorem ending?_append_of_not_issued {id : RequestId} {h : List Moment}
    (hi : issue? id h = none) (h' : List Moment) : ending? id (h ++ h') = ending? id h' := by
  induction h with
  | nil => rfl
  | cons m h ih =>
    rw [issue?, List.findSome?_cons] at hi
    split at hi
    · simp at hi
    · rename_i hm
      rw [List.cons_append, ending?, hm]
      exact ih hi

/-- A call that has ended has its cause in the history. -/
theorem exists_cause {id : RequestId} {h : List Moment} {e : Ending}
    (he : ending? id h = some e) : ∃ m ∈ h, e.Cause id m := by
  induction h with
  | nil => exact absurd he (by simp [ending?])
  | cons m h ih =>
    rw [ending?] at he
    split at he
    · obtain ⟨m', hm', he'⟩ := List.exists_of_findSome?_eq_some he
      exact ⟨m', List.mem_cons_of_mem m hm', Moment.cause_of_ending? he'⟩
    · obtain ⟨m', hm', hc⟩ := ih he
      exact ⟨m', List.mem_cons_of_mem m hm', hc⟩

/-- What a session records is neither an answer nor anything else that could end a call. -/
theorem mem_of_mem_step {m : Moment} {h stimuli : List Moment} {events : List Event}
    (hm : m ∈ h ++ stimuli ++ events.map .event) (hne : m.event? = none) :
    m ∈ h ∨ m ∈ stimuli := by
  rcases List.mem_append.1 hm with hm | hm
  · exact List.mem_append.1 hm
  · obtain ⟨e, -, rfl⟩ := List.mem_map.1 hm
    exact absurd hne (Option.some_ne_none e)

end History

/-! ### What a session has recorded about a call -/

namespace Event

/-- The callback that runs for the call under an identifier: whose it is, and what it is told. -/
def settlement? (id : RequestId) : Event → Option (Call × CallOutcome)
  | .settled id' c outcome => if id' = id then some (c, outcome) else none
  | _ => none

/-- Whether an event hands a message about a request to the transport. -/
def carries (id : RequestId) : Event → Bool
  | .sent m | .refused m _ => m.subject? = some id
  | .issued _ _ _ | .settled _ _ _ | .delivered _ _ => false

variable {id : RequestId} {e : Event}

/-! An event about another identifier says nothing about a call. -/

theorem issue?_eq_none (h : e.subject? ≠ some id) : (Moment.event e).issue? id = none := by
  cases e with
  | issued id' c expiry => exact if_neg fun he => h (congrArg some he)
  | sent m => rfl
  | refused m reason => rfl
  | settled id' c outcome => rfl
  | delivered channel outcome => rfl

theorem ending?_eq_none (h : e.subject? ≠ some id) (expiry : Option Nat) :
    (Moment.event e).ending? id expiry = none := by
  cases e with
  | issued id' c expiry => rfl
  | sent m => rfl
  | refused m reason =>
    cases m with
    | request r => exact if_neg fun he => h (congrArg some he)
    | notification n => rfl
    | response r => rfl
  | settled id' c outcome => rfl
  | delivered channel outcome => rfl

theorem settlement?_eq_none (h : e.subject? ≠ some id) : e.settlement? id = none := by
  cases e with
  | issued id' c expiry => rfl
  | sent m => rfl
  | refused m reason => rfl
  | settled id' c outcome => exact if_neg fun he => h (congrArg some he)
  | delivered channel outcome => rfl

theorem settlement?_eq_some {c : Call} {outcome : CallOutcome} :
    e.settlement? id = some (c, outcome) ↔ e = .settled id c outcome := by
  constructor
  · intro h
    cases e with
    | settled id' c' outcome' =>
      obtain ⟨rfl, he⟩ := Option.ite_none_right_eq_some.1 h
      obtain ⟨rfl, rfl⟩ := Prod.mk.inj (Option.some.inj he)
      rfl
    | issued | sent | refused | delivered => exact absurd h nofun
  · rintro rfl
    exact if_pos rfl

theorem carries_eq_false (h : e.subject? ≠ some id) : e.carries id = false := by
  cases e with
  | issued id' c expiry => rfl
  | sent m => exact decide_eq_false h
  | refused m reason => exact decide_eq_false h
  | settled id' c outcome => rfl
  | delivered channel outcome => rfl

end Event

@[simp]
theorem Link.subject?_carry (l : Link) (m : Message) : (l.carry m).subject? = m.subject? := by
  cases l <;> rfl

namespace Session

/-- The callbacks that have run for the call under an identifier. -/
def settlements (s : Session) (id : RequestId) : List (Call × CallOutcome) :=
  s.log.filterMap (Event.settlement? id)

theorem settlements_append {s s' : Session} {events : List Event} (hlog : s'.log = s.log ++ events)
    (id : RequestId) :
    s'.settlements id = s.settlements id ++ events.filterMap (Event.settlement? id) := by
  rw [settlements, hlog, List.filterMap_append]
  rfl

/-- The messages about the call under an identifier that have been handed to the transport. -/
def traffic (s : Session) (id : RequestId) : List Event :=
  s.log.filter (Event.carries id)

end Session
end Switchboard
