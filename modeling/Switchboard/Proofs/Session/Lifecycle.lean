import Mathlib.Logic.Basic
import Mathlib.Tactic.ByContra
import Switchboard.Proofs.Identifiers
import Switchboard.Proofs.Session.History
import Switchboard.Proofs.Session.Operations

/-!
# The life of a call

A `View` is all that a history and a session say about one identifier. A view is `Sound` in three
cases only: nothing has been issued under the identifier; the call waits, its request is sent and
its deadline armed; the call has ended, it is off both tables, and one callback has run.

Issuing calls is the part of every operation that nests: a callback issues calls in the middle of
whatever runs it, and a refused one has its own callback run at once. `follow_leads` says that no
view of an issued call changes by it and that the new calls get sound views.
-/

namespace Switchboard

open History (issued issue? ending?)

/-- What a history and a session say about an identifier. -/
structure View where
  issue? : Option (Call × Option Nat)
  ending? : Option Ending
  settlements : List (Call × CallOutcome)
  traffic : List Event
  pending? : Option Call
  expiry? : Option Nat

/-- What holds of an identifier between two operations. -/
inductive View.Sound (id : RequestId) : View → Prop
  | unissued : Sound id ⟨none, none, [], [], none, none⟩
  | waiting (c : Call) (expiry : Option Nat) :
      Sound id ⟨some (c, expiry), none, [], [c.spec.sent id], some c, expiry⟩
  | ended (c : Call) (expiry : Option Nat) (e : Ending) {traffic : List Event}
      (left : e.Leaves id c.spec traffic) :
      Sound id ⟨some (c, expiry), some e, [(c, e.outcome)], traffic, none, none⟩

namespace Session

/-- What a history and a session say about an identifier. -/
def view (h : List Moment) (s : Session) (id : RequestId) : View where
  issue? := issue? id h
  ending? := ending? id h
  settlements := s.settlements id
  traffic := s.traffic id
  pending? := s.pending.get? id
  expiry? := (s.deadlines.get? id).map Deadline.expiry

/-! ### Identifiers -/

/-- At most `2^64` calls have been issued. -/
def Few (h : List Moment) : Prop :=
  (issued h).length ≤ 2 ^ 64

theorem Few.of_append {h h' : List Moment} (few : Few (h ++ h')) : Few h := by
  rw [Few, History.issued_append, List.length_append] at few
  exact Nat.le_trans (Nat.le_add_right _ _) few

/-- The calls were issued under the first identifiers of the source, which goes on after them. -/
structure Counted (h : List Moment) (s : Session) : Prop where
  issued : History.issued h = (List.range (History.issued h).length).map IdSource.nth
  next : s.ids = .after (History.issued h).length

theorem Counted.take {h : List Moment} {s : Session} (hc : Counted h s) :
    s.ids.take =
      (IdSource.nth (History.issued h).length, .after ((History.issued h).length + 1)) := by
  rw [hc.next, IdSource.take_after]

/-- Nothing has been issued yet under the next identifier. -/
theorem Counted.fresh {h : List Moment} {s : Session} (hc : Counted h s)
    (few : (History.issued h).length < 2 ^ 64) : History.issue? s.ids.take.1 h = none := by
  by_contra hne
  have hm := History.mem_issued.2 hne
  rw [hc.issued, hc.take] at hm
  exact IdSource.nth_not_mem few hm

/-! ### From one session to a later one -/

/-- One view is kept: it stays as it is if a call has been issued, and sound if it was. -/
structure Keeps (h : List Moment) (s : Session) (h' : List Moment) (s' : Session)
    (id : RequestId) : Prop where
  same : History.issue? id h ≠ none → view h' s' id = view h s id
  sound : (view h s id).Sound id → (view h' s' id).Sound id

theorem Keeps.of_eq {h h' : List Moment} {s s' : Session} {id : RequestId}
    (he : view h' s' id = view h s id) : Keeps h s h' s' id :=
  ⟨fun _ => he, fun hs => he ▸ hs⟩

theorem Keeps.trans {h h' h'' : List Moment} {s s' s'' : Session} {id : RequestId}
    (k : Keeps h s h' s' id) (k' : Keeps h' s' h'' s'' id) : Keeps h s h'' s'' id := by
  refine ⟨fun hi => ?_, fun hs => k'.sound (k.sound hs)⟩
  have he := k.same hi
  have hi' : History.issue? id h' ≠ none := (congrArg View.issue? he).trans_ne hi
  rw [k'.same hi', he]

/-- What a session has recorded since another one extends its history, and then `Q` holds unless too
many calls have been issued. -/
def Leads (h : List Moment) (s s' : Session) (Q : List Moment → Prop) : Prop :=
  ∃ events, s'.log = s.log ++ events ∧
    (Few (h ++ events.map .event) → Q (h ++ events.map .event))

theorem Leads.of_log_eq {h : List Moment} {s s' : Session} {Q : List Moment → Prop}
    (hlog : s'.log = s.log) (hq : Q h) : Leads h s s' Q :=
  ⟨[], by rw [hlog, List.append_nil], fun _ => by rwa [List.map_nil, List.append_nil]⟩

theorem Leads.refl {h : List Moment} {s : Session} {Q : List Moment → Prop} (hq : Q h) :
    Leads h s s Q :=
  .of_log_eq rfl hq

theorem Leads.mono {h : List Moment} {s s' : Session} {Q Q' : List Moment → Prop}
    (hl : Leads h s s' Q) (hq : ∀ h', Q h' → Q' h') : Leads h s s' Q' := by
  obtain ⟨events, hlog, hQ⟩ := hl
  exact ⟨events, hlog, fun few => hq _ (hQ few)⟩

theorem Leads.trans {h : List Moment} {s s' s'' : Session} {Q Q' : List Moment → Prop}
    (hl : Leads h s s' Q) (ho : Onward s' s'') (hq : ∀ h', Q h' → Leads h' s' s'' Q') :
    Leads h s s'' Q' := by
  obtain ⟨events, hlog, hQ⟩ := hl
  obtain ⟨more, hmore, -⟩ := ho.log
  refine ⟨events ++ more, by rw [hmore, hlog, List.append_assoc], fun few => ?_⟩
  rw [List.map_append, ← List.append_assoc] at few ⊢
  obtain ⟨more', hmore', hQ'⟩ := hq _ (hQ few.of_append)
  obtain rfl : more = more' := List.append_cancel_left (hmore.symm.trans hmore')
  exact hQ' few

/-! ### Views -/

variable {h : List Moment} {s s' : Session} {id : RequestId}

/-- Events about other identifiers leave a view as it is. -/
theorem view_append_of_other {events : List Event} (hlog : s'.log = s.log ++ events)
    (hne : ∀ e ∈ events, e.subject? ≠ some id) (hp : s'.pending.get? id = s.pending.get? id)
    (hd : s'.deadlines.get? id = s.deadlines.get? id) :
    view (h ++ events.map .event) s' id = view h s id := by
  have hi : issue? id (events.map .event) = none := by
    rw [issue?, List.findSome?_map, List.findSome?_eq_none_iff]
    exact fun e he => Event.issue?_eq_none (hne e he)
  have he : ending? id (h ++ events.map .event) = ending? id h := by
    cases hh : issue? id h with
    | none =>
      rw [History.ending?_append_of_not_issued hh, History.ending?_eq_none hi,
        History.ending?_eq_none hh]
    | some issue =>
      have hf : (events.map .event).findSome? (Moment.ending? id issue.2) = none := by
        rw [List.findSome?_map, List.findSome?_eq_none_iff]
        exact fun e he => Event.ending?_eq_none (hne e he) issue.2
      rw [History.ending?_append_of_issued hh, hf, Option.or_none]
  have hs : events.filterMap (Event.settlement? id) = [] :=
    List.filterMap_eq_nil_iff.2 fun e he => Event.settlement?_eq_none (hne e he)
  have ht : events.filter (Event.carries id) = [] :=
    List.filter_eq_nil_iff.2 fun e he => by simp [Event.carries_eq_false (hne e he)]
  simp only [view, History.issue?_append, hi, he, hp, hd, settlements, traffic, hlog,
    List.filterMap_append, List.filter_append, hs, ht, Option.or_none, List.append_nil]

/-- What could end a call changes a view only in how it has ended. -/
theorem view_append_stimulus {m : Moment} (hm : m.issue? id = none) :
    view (h ++ [m]) s id =
      { view h s id with
        ending? := (issue? id h).elim none fun issue =>
          (ending? id h).or (m.ending? id issue.2) } := by
  have hi : issue? id [m] = none := by simp [issue?, hm]
  have he : ending? id (h ++ [m]) = (issue? id h).elim none fun issue =>
      (ending? id h).or (m.ending? id issue.2) := by
    cases hh : issue? id h with
    | none => rw [History.ending?_append_of_not_issued hh, History.ending?_eq_none hi]; rfl
    | some issue => rw [History.ending?_append_of_issued hh]; simp
  simp only [view, History.issue?_append, hi, he, Option.or_none]

/-- A stimulus does not concern a call that is not waiting. -/
theorem view_append_stimulus_of_not_waiting {m : Moment} (hm : m.issue? id = none)
    (sound : (view h s id).Sound id) (hp : s.pending.get? id = none) :
    view (h ++ [m]) s id = view h s id := by
  have hp' : (view h s id).pending? = none := hp
  have hi : (view h s id).issue? = issue? id h := rfl
  have he : (view h s id).ending? = ending? id h := rfl
  rw [view_append_stimulus hm, ← hi, ← he]
  generalize view h s id = v at sound hp' ⊢
  cases sound with
  | unissued => rfl
  | waiting c expiry => exact absurd hp' (by simp)
  | ended c expiry e left => rfl

/-- The view of a call that waits. -/
theorem view_of_pending {c : Call} (sound : (view h s id).Sound id)
    (hp : s.pending.get? id = some c) :
    ∃ expiry, view h s id = ⟨some (c, expiry), none, [], [c.spec.sent id], some c, expiry⟩ := by
  have hp' : (view h s id).pending? = some c := hp
  generalize view h s id = v at sound hp' ⊢
  cases sound with
  | unissued => exact absurd hp' (by simp)
  | waiting c' expiry =>
    obtain rfl := Option.some.inj hp'
    exact ⟨expiry, rfl⟩
  | ended c expiry e left => exact absurd hp' (by simp)

/-- The view of an identifier that has not been issued. -/
theorem view_of_unissued (sound : (view h s id).Sound id) (hi : issue? id h = none) :
    view h s id = ⟨none, none, [], [], none, none⟩ := by
  have hi' : (view h s id).issue? = none := hi
  generalize view h s id = v at sound hi' ⊢
  cases sound with
  | unissued => rfl
  | waiting c expiry => exact absurd hi' (by simp)
  | ended c expiry e left => exact absurd hi' (by simp)

/-- The view of a new identifier shows what has been recorded since. -/
theorem view_append_of_unissued {events : List Event}
    (hv : view h s id = ⟨none, none, [], [], none, none⟩) (hlog : s'.log = s.log ++ events) :
    view (h ++ events.map .event) s' id =
      ⟨issue? id (events.map .event), ending? id (events.map .event),
        events.filterMap (Event.settlement? id), events.filter (Event.carries id),
        s'.pending.get? id, (s'.deadlines.get? id).map Deadline.expiry⟩ := by
  have hi : issue? id h = none := congrArg View.issue? hv
  have hs : s.log.filterMap (Event.settlement? id) = [] := congrArg View.settlements hv
  have ht : s.log.filter (Event.carries id) = [] := congrArg View.traffic hv
  simp only [view, settlements, traffic, History.issue?_append, hi,
    History.ending?_append_of_not_issued hi, hlog, List.filterMap_append, List.filter_append, hs,
    ht, Option.none_or, List.nil_append]

/-- The view of a call that has ended shows what has been recorded since. -/
theorem view_append_of_ended {events : List Event} {issue : Call × Option Nat} {e : Ending}
    {told : List (Call × CallOutcome)} {traffic : List Event} {p : Option Call} {x : Option Nat}
    (hv : view h s id = ⟨some issue, some e, told, traffic, p, x⟩)
    (hlog : s'.log = s.log ++ events) :
    view (h ++ events.map .event) s' id =
      ⟨some issue, some e, told ++ events.filterMap (Event.settlement? id),
        traffic ++ events.filter (Event.carries id), s'.pending.get? id,
        (s'.deadlines.get? id).map Deadline.expiry⟩ := by
  have hi : issue? id h = some issue := congrArg View.issue? hv
  have he : ending? id h = some e := congrArg View.ending? hv
  have hs : s.log.filterMap (Event.settlement? id) = told := congrArg View.settlements hv
  have ht : s.log.filter (Event.carries id) = traffic := congrArg View.traffic hv
  simp only [view, settlements, Session.traffic, History.issue?_append, hi,
    History.ending?_append_of_issued hi, he, hlog, List.filterMap_append, List.filter_append, hs,
    ht, Option.some_or]

/-! ### Follow-ups -/

/-- What is known after some calls have been issued: the count goes on, and all views are kept. -/
def Kept (h : List Moment) (s s' : Session) (h' : List Moment) : Prop :=
  Counted h' s' ∧ ∀ id, Keeps h s h' s' id

/-- One call is issued, and everything that is recorded is about it. -/
theorem leads_of_issued {events : List Event} (hc : Counted h s)
    (hlog : s'.log = s.log ++ events) (hids : s'.ids = s.ids.take.2)
    (hi : issued (events.map .event) = [s.ids.take.1])
    (hsub : ∀ e ∈ events, e.subject? = some s.ids.take.1)
    (hother : ∀ id, id ≠ s.ids.take.1 → s'.pending.get? id = s.pending.get? id ∧
      s'.deadlines.get? id = s.deadlines.get? id)
    (hself : issue? s.ids.take.1 h = none →
      view h s s.ids.take.1 = ⟨none, none, [], [], none, none⟩ →
      (view (h ++ events.map .event) s' s.ids.take.1).Sound s.ids.take.1) :
    Leads h s s' (Kept h s s') := by
  refine ⟨events, hlog, fun few => ?_⟩
  have hn : issued (h ++ events.map .event) = issued h ++ [s.ids.take.1] := by
    rw [History.issued_append, hi]
  have few' : (issued h).length < 2 ^ 64 := by
    rw [Few, hn, List.length_append, List.length_singleton] at few
    exact few
  refine ⟨⟨?_, ?_⟩, fun id => ?_⟩
  · rw [hn, List.length_append, List.length_singleton, List.range_succ, List.map_append,
      ← hc.issued, hc.take]
    rfl
  · rw [hn, List.length_append, List.length_singleton, hids, hc.take]
  · by_cases hid : id = s.ids.take.1
    · subst hid
      have hf := hc.fresh few'
      exact ⟨fun hne => absurd hf hne, fun sound => hself hf (view_of_unissued sound hf)⟩
    · refine Keeps.of_eq (view_append_of_other hlog (fun e he hs => ?_) (hother id hid).1
        (hother id hid).2)
      rw [hsub e he] at hs
      exact hid (Option.some.inj hs).symm

/-- The tables of a launch differ at the new identifier only. -/
theorem launch_get?_of_ne {c : Call} (hid : id ≠ s.ids.take.1) :
    (s.launch c).2.pending.get? id = s.pending.get? id ∧
      (s.launch c).2.deadlines.get? id = s.deadlines.get? id := by
  rw [launch_eq]
  exact ⟨by rw [PendingCalls.get?_register, if_neg hid], Deadlines.get?_armAny_of_ne _ hid _ _⟩

theorem launch_leads (hc : Counted h s) {c : Call} (ha : (s.launch c).2.link = .accepting) :
    Leads h s (s.launch c).2 (Kept h s (s.launch c).2) := by
  have hlog : (s.launch c).2.log = s.log ++ [.issued s.ids.take.1 c (s.expiry? c.spec),
      c.spec.sent s.ids.take.1] := log_launch_of_accepting ha
  refine leads_of_issued hc hlog (by rw [launch_eq]) rfl (by simp [Event.subject?, CallSpec.sent,
    Message.subject?, CallSpec.request]) (fun id => launch_get?_of_ne) fun hf hv => ?_
  rw [view_append_of_unissued hv hlog, launch_eq, PendingCalls.get?_register, if_pos rfl,
    Deadlines.expiry_armAny_self (Option.map_eq_none_iff.1 (congrArg View.expiry? hv))]
  have hw := @View.Sound.waiting s.ids.take.1 c (s.expiry? c.spec)
  simpa [issue?, ending?, Moment.issue?, Moment.ending?, Event.settlement?, Event.carries,
    CallSpec.sent, Message.subject?, CallSpec.request, List.filterMap_cons] using hw

theorem bounce_leads (hc : Counted h s) {c : Call} {reason : String}
    (hr : (s.launch c).2.link = .refusing reason) :
    Leads h s (s.bounce c reason) (Kept h s (s.bounce c reason)) := by
  have hlog := log_bounce hr
  have hids : (s.bounce c reason).ids = s.ids.take.2 := by
    simp only [bounce, conclude, record, detach, launch_eq]
  have hp : ∀ id, (s.bounce c reason).pending.get? id =
      if id = s.ids.take.1 then none else (s.launch c).2.pending.get? id := fun id => by
    simp only [bounce, conclude, record, detach, launch_eq, Table.get?_erase]
  have hd : ∀ id, (s.bounce c reason).deadlines.get? id =
      if id = s.ids.take.1 then none else (s.launch c).2.deadlines.get? id := fun id => by
    simp only [bounce, conclude, record, detach, launch_eq, Table.get?_erase]
  refine leads_of_issued hc hlog hids rfl (by simp [Event.subject?, Message.subject?,
    CallSpec.request]) (fun id hid => ?_) fun hf hv => ?_
  · rw [hp, hd, if_neg hid, if_neg hid]
    exact launch_get?_of_ne hid
  · rw [view_append_of_unissued hv hlog, hp, hd, if_pos rfl, if_pos rfl]
    have hw := @View.Sound.ended s.ids.take.1 c (s.expiry? c.spec) (.refused reason) _ rfl
    simpa [issue?, ending?, Moment.issue?, Moment.ending?, Event.settlement?, Event.carries,
      Message.subject?, CallSpec.request, List.filterMap_cons, Ending.outcome] using hw

/-- A delivery is about no identifier. -/
theorem deliver_leads (hc : Counted h s) (channel : Channel) (outcome : CallOutcome) :
    Leads h s (s.deliver channel outcome) (Kept h s (s.deliver channel outcome)) := by
  have hn : issued (h ++ [Event.delivered channel outcome].map .event) = issued h := by
    rw [History.issued_append]
    exact List.append_nil _
  refine ⟨[.delivered channel outcome], rfl, fun _ => ⟨⟨?_, ?_⟩, fun id => ?_⟩⟩
  · rw [hn]
    exact hc.issued
  · rw [hn]
    exact hc.next
  · refine Keeps.of_eq (view_append_of_other rfl (fun e he => ?_) rfl rfl)
    rw [List.mem_singleton.1 he]
    exact nofun

/-- **A follow-up keeps all views.** The calls that it issues get sound views of their own. -/
theorem follow_leads (hc : Counted h s) (f : Followup) :
    Leads h s (s.follow f) (Kept h s (s.follow f)) := by
  refine follow_induction (P := fun s' => Leads h s s' (Kept h s s')) ?_ ?_ ?_ f s
    (.refl ⟨hc, fun _ => .of_eq rfl⟩)
  · intro s' channel outcome hl
    refine hl.trans (onward_deliver s' channel outcome) fun h' k =>
      (deliver_leads k.1 channel outcome).mono fun h'' k' => ?_
    exact ⟨k'.1, fun id => (k.2 id).trans (k'.2 id)⟩
  · intro s' c hl ha
    refine hl.trans (onward_launch s' c) fun h' k => (launch_leads k.1 ha).mono fun h'' k' => ?_
    exact ⟨k'.1, fun id => (k.2 id).trans (k'.2 id)⟩
  · intro s' c reason hl hr
    refine hl.trans (onward_bounce s' c reason) fun h' k =>
      (bounce_leads k.1 hr).mono fun h'' k' => ?_
    exact ⟨k'.1, fun id => (k.2 id).trans (k'.2 id)⟩

end Session
end Switchboard
