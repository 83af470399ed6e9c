import Switchboard.Proofs.Session.Traffic

/-!
# Deadlines and pending calls in step

The calls with a deadline are those that wait and have a timeout, their own or that of the session
(`Run.armed_iff`), and a sweep fails exactly the calls whose deadlines it takes
(`Sound.perm_timedOut`). Both are in `Run.deadlines_in_step`.

Callbacks may issue calls in the middle of a sweep. Such a call may be refused, but its deadline is
for a later sweep: what a session records by itself ends calls by refusal only
(`History.ending?_append_events`).
-/

namespace Switchboard

open History (issue? ending?)

/-- The call that is failed because its deadline has passed. -/
def Event.timedOut? : Event → Option RequestId
  | .settled id _ (.error .timeout) => some id
  | .settled _ _ _ | .issued _ _ _ | .sent _ | .refused _ _ | .delivered _ _ => none

variable {h : List Moment} {id : RequestId} {e : Ending} {events : List Event}

namespace Ending

theorem eq_refused_of_cause {event : Event} (hc : e.Cause id (.event event)) :
    ∃ reason, e = refused reason := by
  cases e with
  | refused reason => exact ⟨reason, rfl⟩
  | expired =>
    obtain ⟨now, hm⟩ := hc
    exact absurd hm nofun
  | answered | withdrawn | cancelled | disconnected => exact absurd hc nofun

theorem eq_expired (he : e.outcome = .error .timeout) : e = expired := by
  cases e with
  | expired => rfl
  | answered o => cases o <;> exact absurd he nofun
  | refused | withdrawn | cancelled | disconnected => exact absurd he nofun

end Ending

/-- What a session records by itself ends calls by refusal only. -/
theorem History.ending?_append_events (he : ending? id (h ++ events.map .event) = some e) :
    ending? id h = some e ∨ ∃ reason, e = .refused reason := by
  have hcause : ∀ m ∈ events.map Moment.event, e.Cause id m → ∃ reason, e = .refused reason := by
    intro m hm hc
    obtain ⟨event, -, rfl⟩ := List.mem_map.1 hm
    exact Ending.eq_refused_of_cause hc
  cases hi : issue? id h with
  | none =>
    rw [History.ending?_append_of_not_issued hi] at he
    obtain ⟨m, hm, hc⟩ := History.exists_cause he
    exact .inr (hcause m hm hc)
  | some issue =>
    rw [History.ending?_append_of_issued hi, Option.or_eq_some_iff] at he
    rcases he with he | ⟨-, he⟩
    · exact .inl he
    · obtain ⟨m, hm, hme⟩ := List.exists_of_findSome?_eq_some he
      exact .inr (hcause m hm (Moment.cause_of_ending? hme))

/-! ### Failed calls on record -/

namespace Event

theorem timedOut?_eq_some {event : Event} :
    event.timedOut? = some id ↔ ∃ c, event = .settled id c (.error .timeout) := by
  constructor
  · intro h
    unfold timedOut? at h
    split at h
    · rename_i id' c
      obtain rfl := Option.some.inj h
      exact ⟨c, rfl⟩
    all_goals exact absurd h nofun
  · rintro ⟨c, rfl⟩
    rfl

/-- A call is failed by its deadline if its callback is told so. -/
theorem mem_timedOut : id ∈ events.filterMap timedOut? ↔
    ∃ c, (c, .error .timeout) ∈ events.filterMap (settlement? id) := by
  simp only [List.mem_filterMap, timedOut?_eq_some, settlement?_eq_some]
  constructor
  · rintro ⟨event, hevent, c, rfl⟩
    exact ⟨c, _, hevent, rfl⟩
  · rintro ⟨c, event, hevent, rfl⟩
    exact ⟨_, hevent, c, rfl⟩

/-- A call is failed at most as often as its callbacks run. -/
theorem count_timedOut_le :
    (events.filterMap timedOut?).count id ≤ (events.filterMap (settlement? id)).length := by
  rw [List.count_filterMap, List.length_filterMap_eq_countP]
  refine List.countP_mono_left fun event _ ht => ?_
  obtain ⟨c, rfl⟩ := timedOut?_eq_some.1 (eq_of_beq ht)
  rw [settlement?_eq_some.2 rfl]
  rfl

end Event

namespace View.Sound

variable {v : View} {c : Call} {expiry : Option Nat}

/-- A deadline is armed for a call that waits and was issued with one. -/
theorem armed_iff (sound : v.Sound id) :
    v.expiry?.isSome = true ↔ v.pending?.isSome = true ∧
      ∃ c expiry, v.issue? = some (c, expiry) ∧ expiry.isSome = true := by
  cases sound with
  | unissued => exact ⟨nofun, fun ha => ha.1⟩
  | waiting c expiry =>
    constructor
    · intro ha
      exact ⟨rfl, c, expiry, rfl, ha⟩
    · rintro ⟨-, c', expiry', hi, ha⟩
      obtain ⟨rfl, rfl⟩ := Prod.mk.inj (Option.some.inj hi)
      exact ha
  | ended => exact ⟨nofun, fun ha => ha.1⟩

/-- A call that has been settled keeps no deadline. -/
theorem not_armed (sound : v.Sound id) (hset : v.settlements ≠ []) : v.expiry? = none := by
  cases sound with
  | unissued | waiting => exact absurd rfl hset
  | ended => rfl

/-- A call that has ended has had one callback run. -/
theorem settlements_of_ending (sound : v.Sound id) (he : v.ending? = some e) :
    ∃ c, v.settlements = [(c, e.outcome)] := by
  cases sound with
  | unissued | waiting => exact absurd he nofun
  | ended c expiry e' =>
    obtain rfl := Option.some.inj he
    exact ⟨c, rfl⟩

theorem settlements_length_le (sound : v.Sound id) : v.settlements.length ≤ 1 := by
  cases sound with
  | unissued | waiting => exact Nat.zero_le 1
  | ended => exact Nat.le_refl 1

end View.Sound

namespace Session

variable {config : SessionConfig} {s s' : Session} {c : Call} {expiry : Option Nat}

/-! ### Armed deadlines -/

/-- **Armed are the deadlines of the calls that wait and have a timeout.** -/
theorem Run.armed_iff (run : Run { config } h s) (few : Few h) :
    s.deadlines.contains id = true ↔ s.pending.contains id = true ∧
      ∃ c expiry, issue? id h = some (c, expiry) ∧
        (c.spec.timeout ≠ none ∨ config.defaultTimeout ≠ none) := by
  have armed := ((run.sound few).views id).armed_iff
  rw [view, Option.isSome_map] at armed
  refine armed.trans (and_congr_right fun _ => exists_congr fun c => exists_congr fun expiry =>
    and_congr_right fun hi => ?_)
  obtain ⟨h₁, h₂, -, rfl⟩ := run.issue_deadline hi
  rw [Option.isSome_map, Option.isSome_or, Bool.or_eq_true, Option.isSome_iff_ne_none,
    Option.isSome_iff_ne_none]

/-! ### Sweeps -/

section

variable {order : List RequestId}

/-- A sweep fails the calls that are overdue. -/
theorem Sound.mem_timedOut_of_overdue (hs : Sound h s) (hid : id ∈ s.overdue)
    (hlog : s'.log = s.log ++ events)
    (hs' : Sound (h ++ [.swept s.clock] ++ events.map .event) s') :
    id ∈ events.filterMap Event.timedOut? := by
  obtain ⟨c, expiry, hv, hdue⟩ := view_of_overdue hs hid
  have hi : issue? id h = some (c, expiry) := congrArg View.issue? hv
  have he : ending? id h = none := congrArg View.ending? hv
  have hset : s.settlements id = [] := congrArg View.settlements hv
  have hswept : (Moment.swept s.clock).ending? id expiry = some .expired := if_pos hdue
  have he' : ending? id (h ++ [.swept s.clock] ++ events.map .event) = some .expired := by
    rw [List.append_assoc, History.ending?_append_of_issued hi, he, Option.none_or,
      List.findSome?_append, List.findSome?_cons, hswept, Option.some_or]
  obtain ⟨c', hset'⟩ : ∃ c, s'.settlements id = [(c, .error .timeout)] :=
    (hs'.views id).settlements_of_ending he'
  rw [settlements_append hlog, hset, List.nil_append] at hset'
  exact Event.mem_timedOut.2 ⟨c', hset' ▸ List.mem_cons_self⟩

/-- A sweep fails no other calls. -/
theorem Sound.overdue_of_mem_timedOut (hs : Sound h s) (hlog : s'.log = s.log ++ events)
    (hs' : Sound (h ++ [.swept s.clock] ++ events.map .event) s')
    (hid : id ∈ events.filterMap Event.timedOut?) : id ∈ s.overdue := by
  refine Decidable.byContradiction fun hnot => ?_
  obtain ⟨c, hc⟩ := Event.mem_timedOut.1 hid
  have hset' := settlements_append hlog id
  obtain ⟨expiry, e, -, he, ho, -⟩ :=
    hs'.of_settlement (by rw [hset']; exact List.mem_append_right _ hc)
  obtain rfl := Ending.eq_expired ho.symm
  rcases History.ending?_append_events he with he | ⟨reason, he⟩
  · -- It had passed its deadline before, and its callback had run.
    have he' : ending? id h = some .expired :=
      (congrArg View.ending? (view_sweep_of_not_overdue hs hnot)).symm.trans he
    obtain ⟨c', hset⟩ : ∃ c, s.settlements id = [(c, .error .timeout)] :=
      (hs.views id).settlements_of_ending he'
    have hle : (s'.settlements id).length ≤ 1 := (hs'.views id).settlements_length_le
    rw [hset', hset, List.length_append, List.length_singleton] at hle
    have hpos := List.length_pos_of_mem hc
    omega
  · exact absurd he nofun

/-- **A sweep fails exactly the calls whose deadlines it takes**, each once. -/
theorem Sound.perm_timedOut (hs : Sound h s) (ho : order.Perm s.overdue)
    (hlog : s'.log = s.log ++ events)
    (hs' : Sound (h ++ [.swept s.clock] ++ events.map .event) s') :
    (events.filterMap Event.timedOut?).Perm order := by
  have hnodup : s.overdue.Nodup := Deadlines.nodup_due _ _
  have hnodup' : (events.filterMap Event.timedOut?).Nodup := by
    refine List.nodup_iff_count.2 fun id => Nat.le_trans Event.count_timedOut_le ?_
    have hle : (s'.settlements id).length ≤ 1 := (hs'.views id).settlements_length_le
    rw [settlements_append hlog, List.length_append] at hle
    omega
  refine ((List.perm_ext_iff_of_nodup hnodup' hnodup).2 fun id => ?_).trans ho.symm
  exact ⟨hs.overdue_of_mem_timedOut hlog hs', fun hid => hs.mem_timedOut_of_overdue hid hlog hs'⟩

/-- What is issued during a sweep is on record after it. -/
theorem Run.few_sweep (run : Run { config } h s) {now : Nat} (hlog : s'.log = s.log ++ events)
    (few : s'.calls.length ≤ 2 ^ 64) : Few (h ++ [.swept now] ++ events.map .event) := by
  have hevents : History.issued (events.map .event) = events.filterMap Event.call? := by
    rw [History.issued, List.filterMap_map]
    congr 1
    funext event
    cases event <;> rfl
  have hswept : History.issued [.swept now] = [] := rfl
  rw [calls, hlog, List.filterMap_append] at few
  rwa [Few, History.issued_append, History.issued_append, hswept, List.append_nil, run.issued_eq,
    hevents]

end

/-- What a sweep returns is what it fails, in whatever order it takes the deadlines. -/
theorem Run.timedOut_perm_swept (run : Run { config } h s) (few : Few h) (now : Nat)
    {order : List RequestId} (ho : order.Perm ({ s with clock := now } : Session).overdue) :
    let swept := ({ s with clock := now } : Session).checkTimeoutsIn order
    swept.2.calls.length ≤ 2 ^ 64 →
      swept.1.Nodup ∧
        ((swept.2.log.drop s.log.length).filterMap Event.timedOut?).Perm swept.1 := by
  intro swept few'
  have hdue : Sound h { s with clock := now } := (run.sound few).congr rfl rfl rfl rfl
  obtain ⟨events, hlog, hsound⟩ := hdue.expireAll ho
  have hlog' : swept.2.log = s.log ++ events := hlog
  refine ⟨ho.nodup_iff.2 (Deadlines.nodup_due _ _), ?_⟩
  rw [hlog', List.drop_left]
  exact hdue.perm_timedOut ho hlog (hsound (run.few_sweep hlog' few'))

/-- **Deadlines and pending calls stay in step.** The calls with a deadline are those that wait and
were issued with a timeout, or in a session that has one; a call that has been settled has none. At
any instant a sweep returns the calls whose deadlines have passed, and these are exactly the calls
that it fails, each once; so it does in whatever order it takes the deadlines. -/
theorem Run.deadlines_in_step (run : Run { config } h s) (few : Few h) :
    (∀ id, s.deadlines.contains id = true ↔ s.pending.contains id = true ∧
      ∃ c expiry, issue? id h = some (c, expiry) ∧
        (c.spec.timeout ≠ none ∨ config.defaultTimeout ≠ none)) ∧
    (∀ id, s.settlements id ≠ [] → s.deadlines.contains id = false) ∧
    ∀ now : Nat,
      let due : Session := { s with clock := now }
      (∀ id, id ∈ due.checkTimeouts.1 ↔ ∃ x, s.deadlines.get? id = some x ∧ x.expiry ≤ now) ∧
      (due.checkTimeouts.2.calls.length ≤ 2 ^ 64 →
        due.checkTimeouts.1.Nodup ∧
        ((due.checkTimeouts.2.log.drop s.log.length).filterMap Event.timedOut?).Perm
          due.checkTimeouts.1) ∧
      ∀ order : List RequestId, order.Perm due.checkTimeouts.1 →
        (due.checkTimeoutsIn order).2.calls.length ≤ 2 ^ 64 →
        (due.checkTimeoutsIn order).1.Nodup ∧
        (due.checkTimeoutsIn order).1.Perm due.checkTimeouts.1 ∧
        (((due.checkTimeoutsIn order).2.log.drop s.log.length).filterMap Event.timedOut?).Perm
          (due.checkTimeoutsIn order).1 := by
  refine ⟨fun id => run.armed_iff few, fun id hset => ?_,
    fun now => ⟨fun id => mem_overdue, ?_, fun order ho few' => ?_⟩⟩
  · have hd := ((run.sound few).views id).not_armed hset
    rw [view, Option.map_eq_none_iff] at hd
    rw [Table.contains, hd]
    rfl
  · exact run.timedOut_perm_swept few now (.refl _)
  · obtain ⟨hnodup, hperm⟩ := run.timedOut_perm_swept few now ho few'
    exact ⟨hnodup, ho, hperm⟩

/-- A call with a timeout of its own, which a sweep fails after five milliseconds. -/
theorem deadlines_in_step_sweep :
    ∃ h s, Run { config := { defaultTimeout := none } } h s ∧ Few h ∧
      s.deadlines.contains (.number 1) = true ∧
      let swept := ({ s with clock := 5 } : Session).checkTimeouts
      swept.1 = [.number 1] ∧
        ((swept.2.log.drop s.log.length).filterMap Event.timedOut?).Perm [.number 1] := by
  have run : Run { config := { defaultTimeout := none } } _ _ :=
    Run.start.step (.issue { spec := { method := "ping", timeout := some 5 } })
  have few : 1 ≤ 2 ^ 64 := by decide
  have main := run.deadlines_in_step few
  have armed := (main.1 (.number 1)).2 ⟨rfl, _, _, rfl, .inl (Option.some_ne_none 5)⟩
  exact ⟨_, _, run, few, armed, rfl, ((main.2.2 5).2.1 few).2⟩

end Session
end Switchboard
