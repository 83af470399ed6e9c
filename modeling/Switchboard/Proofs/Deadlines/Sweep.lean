import Switchboard.Proofs.Deadlines.Trace

/-!
# A sweep fires what was due when it began

A sweep takes everything due off the table before it carries out the first alarm, so that an alarm
meets a table on which nothing is due but what alarms of the same sweep have armed. What they arm
or disarm there decides what remains, and never what fires: `Sweep.exact`, for every order in which
the alarms are carried out.
-/

namespace Switchboard

open Deadlines

variable {ε : Type} {d : Deadlines (Alarm ε)} {now : Nat} {order : List (RequestId × Alarm ε)}

namespace Deadlines

theorem get?_notDue_eq_some {id : RequestId} {x : Deadline (Alarm ε)} :
    (d.notDue now).get? id = some x ↔ d.get? id = some x ∧ now < x.expiry := by
  rw [get?_notDue, Option.filter_eq_some_iff, decide_eq_true_eq]

/-- Something is due exactly if the earliest deadline is. -/
theorem exists_due_iff_next? :
    (∃ id x, d.get? id = some x ∧ x.expiry ≤ now) ↔ ∃ expiry, d.next? = some expiry ∧ expiry ≤ now := by
  constructor
  · rintro ⟨id, x, hget, hdue⟩
    have hmem : x.expiry ∈ d.toList.map fun e => e.2.expiry :=
      List.mem_map.mpr ⟨(id, x), Table.mem_entries.mpr hget, rfl⟩
    cases hnext : d.next? with
    | none =>
      rw [next?, List.min?_eq_none_iff] at hnext
      rw [hnext] at hmem
      cases hmem
    | some expiry =>
      obtain ⟨-, hleast⟩ := List.min?_eq_some_iff.mp hnext
      exact ⟨expiry, rfl, Nat.le_trans (hleast _ hmem) hdue⟩
  · rintro ⟨expiry, hnext, hdue⟩
    obtain ⟨hmem, -⟩ := List.min?_eq_some_iff.mp hnext
    obtain ⟨⟨id, x⟩, hx, rfl⟩ := List.mem_map.mp hmem
    exact ⟨id, x, Table.mem_entries.mp hx, hdue⟩

end Deadlines

namespace Sweep

/-- What a sweep of a table at an instant does, of which the events of its alarms are given. -/
structure Exact (now : Nat) (d : Deadlines (Alarm ε)) (s : Sweep ε) (t : List (Event ε)) : Prop where
  /-- What was due at the beginning is fired once, and nothing else is. -/
  fired : s.fired.Nodup ∧ ∀ id, id ∈ s.fired ↔ ∃ x, d.get? id = some x ∧ x.expiry ≤ now
  /-- The alarms of just these deadlines are carried out, each of them once. -/
  alarms : (t.filterMap Event.firing?).map Prod.fst = s.fired ∧
    ∀ id alarm, (id, alarm) ∈ t.filterMap Event.firing? ↔
      ∃ x, d.get? id = some x ∧ x.expiry ≤ now ∧ x.alarm = alarm
  notes : s.notes = t.filterMap Event.note?
  /-- What remains was not due and no alarm has touched it, or else an alarm has armed it and none
  has touched it since. -/
  remaining : ∀ id x, s.remaining.get? id = some x ↔
    d.get? id = some x ∧ now < x.expiry ∧ Untouched id t ∨
      ∃ pre old post, t = pre ++ .armed id x old :: post ∧ Untouched id post
  /-- An alarm finds nothing to disarm under an identifier that is fired in this sweep, unless it was
  armed anew before. -/
  collected : ∀ pre id old post, t = pre ++ .disarmed id old :: post → id ∈ s.fired →
    (∀ x old', .armed id x old' ∉ pre) → old = none
  /-- Something is fired exactly if the earliest deadline was due. -/
  some_iff : s.fired ≠ [] ↔ ∃ expiry, d.next? = some expiry ∧ expiry ≤ now

theorem inOrder_eq :
    Sweep.inOrder now d order =
      { fired := order.map Prod.fst
        notes := (Alarm.traceAll order (d.notDue now)).filterMap Event.note?
        remaining := replay (Alarm.traceAll order (d.notDue now)) (d.notDue now) } := by
  rw [inOrder, Alarm.runAll_eq]

theorem mem_fired (horder : order.Perm (d.due now)) {id : RequestId} :
    id ∈ (Sweep.inOrder now d order).fired ↔ ∃ x, d.get? id = some x ∧ x.expiry ≤ now := by
  show id ∈ order.map Prod.fst ↔ _
  rw [List.mem_map]
  constructor
  · rintro ⟨⟨id, alarm⟩, hmem, rfl⟩
    obtain ⟨x, hget, hdue, -⟩ := mem_due.mp (horder.mem_iff.mp hmem)
    exact ⟨x, hget, hdue⟩
  · rintro ⟨x, hget, hdue⟩
    exact ⟨(id, x.alarm), horder.mem_iff.mpr (mem_due.mpr ⟨x, hget, hdue, rfl⟩), rfl⟩

/-- Nothing is left under what is fired, until an alarm arms it anew. -/
theorem not_standing_of_fired (horder : order.Perm (d.due now)) {t : List (Event ε)}
    (hfaith : Faithful t (d.notDue now)) {id : RequestId}
    (hid : id ∈ (Sweep.inOrder now d order).fired) (hnew : ∀ x old, .armed id x old ∉ t) :
    (replay t (d.notDue now)).get? id = none := by
  refine Option.eq_none_iff_forall_not_mem.mpr fun x hx => ?_
  rcases (get?_replay_eq_some_iff hfaith).mp hx with ⟨hget, -⟩ | ⟨pre, old, post, rfl, -⟩
  · obtain ⟨hget, hlater⟩ := get?_notDue_eq_some.mp hget
    obtain ⟨y, hy, hdue⟩ := (mem_fired horder).mp hid
    cases hget.symm.trans hy
    exact Nat.not_le_of_lt hlater hdue
  · exact hnew x old (List.mem_append_right pre List.mem_cons_self)

/-- **A sweep fires exactly what was due when it began**, in whatever order. -/
theorem exact (horder : order.Perm (d.due now)) :
    (Sweep.inOrder now d order).Exact now d (Alarm.traceAll order (d.notDue now)) := by
  have hfaith : Faithful (Alarm.traceAll order (d.notDue now)) (d.notDue now) :=
    Alarm.faithful_traceAll _ order
  refine
    { fired := ⟨?nodup, fun id => mem_fired horder⟩
      alarms := ⟨?_, fun id alarm => ?_⟩
      notes := by rw [inOrder_eq]
      remaining := fun id x => ?remaining
      collected := fun pre id old post ht hid hnew => ?collected
      some_iff := ?some }
  case nodup => exact (horder.map Prod.fst).nodup_iff.mpr (nodup_due d now)
  case remaining =>
    rw [inOrder_eq]
    show (replay _ _).get? id = some x ↔ _
    rw [get?_replay_eq_some_iff hfaith, get?_notDue_eq_some, and_assoc]
  case collected =>
    rw [ht] at hfaith
    obtain ⟨hpre, hold, -⟩ := faithful_append.mp hfaith
    exact hold.trans (not_standing_of_fired horder hpre hid hnew)
  case some =>
    rw [← exists_due_iff_next?]
    constructor
    · intro hsome
      obtain ⟨id, hid⟩ := List.exists_mem_of_ne_nil _ hsome
      exact ⟨id, (mem_fired horder).mp hid⟩
    · rintro ⟨id, hdue⟩
      exact List.ne_nil_of_mem ((mem_fired horder).mpr hdue)
  · rw [Alarm.firing?_traceAll]
    rfl
  · rw [Alarm.firing?_traceAll, horder.mem_iff, mem_due]

end Sweep
end Switchboard
