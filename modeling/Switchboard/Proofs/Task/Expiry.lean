import Switchboard.Proofs.Task.Operations

/-!
# Tasks older than they may get

A task that has a time to live is swept once it has outlived it: its age, which is nothing while the
clock is behind its creation, is above the time to live (`Task.Outlived`). Neither its status nor
its last update matters.

A task that has outlived its time has done so at every later instant (`Task.Outlived.mono`). Hence
an earlier sweep takes nothing from a store that a later one would leave there, and the two together
remove what the later one alone does (`TaskStore.sweep_sweep`). However often a store is swept, the
last sweep decides what is left: `TaskStore.sweep_exact`.
-/

namespace Switchboard

namespace Task

variable {t : Task} {now later : Timestamp}

/-- The task has a time to live, and its age is above it. -/
def Outlived (t : Task) (now : Timestamp) : Prop :=
  ∃ ttl, t.ttl = some ttl ∧ (ttl.nanos : Int) < max 0 (now.toNanos - t.createdAt.toNanos)

theorem isExpired_iff : t.isExpired now = true ↔ t.Outlived now := by
  unfold isExpired Outlived Timestamp.since
  cases t.ttl with
  | none => simp
  | some ttl =>
    simp only [decide_eq_true_eq, Option.some.injEq, exists_eq_left']
    omega

/-- What has outlived its time stays so. -/
theorem Outlived.mono (h : t.Outlived now) (hle : now.toNanos ≤ later.toNanos) :
    t.Outlived later := by
  obtain ⟨ttl, httl, hage⟩ := h
  exact ⟨ttl, httl, by omega⟩

end Task

namespace TaskStore

variable (s : TaskStore) {now now' : Timestamp} {id : String}

/-! ### One sweep -/

theorem mem_expired : id ∈ s.expired now ↔ ∃ t, s.get? id = some t ∧ t.Outlived now := by
  simp only [expired, List.mem_map, List.mem_filter, Task.isExpired_iff, get?_eq_some]
  constructor
  · rintro ⟨t, ⟨ht, hold⟩, hid⟩
    exact ⟨t, ⟨ht, hid⟩, hold⟩
  · rintro ⟨t, ⟨ht, hid⟩, hold⟩
    exact ⟨t, ⟨ht, hold⟩, hid⟩

/-- The tasks that are left are those that have not outlived their time. -/
theorem tasks_sweep : (s.sweep now).2.tasks = s.tasks.filter fun t => !t.isExpired now := by
  refine (s.values_filter fun id => id ∉ s.expired now).trans (List.filter_congr fun t ht => ?_)
  have hself : s.get? t.id = some t := get?_eq_some.mpr ⟨ht, rfl⟩
  have hmem : t.id ∈ s.expired now ↔ t.isExpired now = true := by
    rw [mem_expired, hself, Task.isExpired_iff]
    simp
  show decide (t.id ∉ s.expired now) = !t.isExpired now
  cases hold : t.isExpired now <;> simp [hmem, hold]

theorem get?_sweep :
    (s.sweep now).2.get? id = (s.get? id).filter fun t => !t.isExpired now := by
  ext t
  rw [Option.filter_eq_some_iff, get?_eq_some, get?_eq_some, tasks_sweep, List.mem_filter,
    and_right_comm]

theorem result?_sweep :
    (s.sweep now).2.result? id = if id ∈ s.expired now then none else s.result? id := by
  have hlookup : (s.sweep now).2.result? id =
      if decide (id ∉ s.expired now) then s.result? id else none :=
    lookup_filter_key (fun k => decide (k ∉ s.expired now)) id s.results
  rw [hlookup]
  by_cases hid : id ∈ s.expired now <;> simp [hid]

/-- A sweep says how many tasks it has removed. -/
theorem size_sweep (now : Timestamp) : (s.sweep now).1 + (s.sweep now).2.size = s.size := by
  have hcount : (s.sweep now).1 = (s.tasks.filter fun t => t.isExpired now).length :=
    List.length_map _
  rw [hcount, ← length_tasks, tasks_sweep, ← length_tasks]
  exact (List.length_eq_length_filter_add fun t : Task => t.isExpired now).symm

/-! ### Sweeps one after another -/

/-- What a later sweep removes has been removed by an earlier one, or is still to be removed. -/
theorem mem_expired_of_le (hle : now.toNanos ≤ now'.toNanos) :
    id ∈ s.expired now' ↔ id ∈ s.expired now ∨ id ∈ (s.sweep now).2.expired now' := by
  simp only [mem_expired, get?_sweep, Option.filter_eq_some_iff, Bool.not_eq_true',
    ← Bool.not_eq_true, Task.isExpired_iff]
  constructor
  · rintro ⟨t, ht, hold⟩
    by_cases hnow : t.Outlived now
    · exact .inl ⟨t, ht, hnow⟩
    · exact .inr ⟨t, ⟨ht, hnow⟩, hold⟩
  · rintro (⟨t, ht, hold⟩ | ⟨t, ⟨ht, -⟩, hold⟩)
    · exact ⟨t, ht, hold.mono hle⟩
    · exact ⟨t, ht, hold⟩

/-- **An earlier sweep makes no difference to a later one**, which removes that much less. -/
theorem sweep_sweep (hle : now.toNanos ≤ now'.toNanos) :
    ((s.sweep now).2.sweep now').2 = (s.sweep now').2 ∧
      (s.sweep now).1 + ((s.sweep now).2.sweep now').1 = (s.sweep now').1 := by
  have hstore : ((s.sweep now).2.sweep now').2 = (s.sweep now').2 := by
    have hkept : ∀ id, id ∉ s.expired now' ↔
        id ∉ (s.sweep now).2.expired now' ∧ id ∉ s.expired now := fun id => by
      rw [s.mem_expired_of_le hle, not_or, and_comm]
    ext1
    case table =>
      refine table_eq ?_
      rw [tasks_sweep, tasks_sweep, tasks_sweep, List.filter_filter]
      refine List.filter_congr fun t _ => ?_
      cases hold : t.isExpired now with
      | false => rw [Bool.not_false, Bool.and_true]
      | true =>
        rw [Task.isExpired_iff.mpr ((Task.isExpired_iff.mp hold).mono hle)]
        rfl
    case results =>
      show (s.results.filter fun r => r.1 ∉ s.expired now).filter
          (fun r => r.1 ∉ (s.sweep now).2.expired now') =
        s.results.filter fun r => r.1 ∉ s.expired now'
      rw [List.filter_filter]
      refine List.filter_congr fun r _ => ?_
      rw [← Bool.decide_and, decide_eq_decide]
      exact (hkept r.1).symm
    all_goals rfl
  have hfirst := s.size_sweep now
  have hsecond := (s.sweep now).2.size_sweep now'
  have halone := s.size_sweep now'
  rw [hstore] at hsecond
  exact ⟨hstore, by omega⟩

/-- Sweeps at several instants, one after another; how many tasks they remove together. -/
def sweepAll : List Timestamp → TaskStore → Nat × TaskStore
  | [], s => (0, s)
  | now :: rest, s =>
    let (n, s) := s.sweep now
    let (more, s) := sweepAll rest s
    (n + more, s)

/-- However often a store has been swept before, it is left as the last sweep alone leaves it. -/
theorem sweepAll_sweep {instants : List Timestamp} {last : Timestamp}
    (hle : ∀ now ∈ instants, now.toNanos ≤ last.toNanos) :
    ((sweepAll instants s).2.sweep last).2 = (s.sweep last).2 ∧
      (sweepAll instants s).1 + ((sweepAll instants s).2.sweep last).1 = (s.sweep last).1 := by
  induction instants generalizing s with
  | nil => exact ⟨rfl, Nat.zero_add _⟩
  | cons now instants ih =>
    obtain ⟨hnow, hrest⟩ := List.forall_mem_cons.mp hle
    obtain ⟨hstore, hcount⟩ := ih (s.sweep now).2 hrest
    obtain ⟨hstore', hcount'⟩ := s.sweep_sweep hnow
    refine ⟨hstore.trans hstore', ?_⟩
    show (s.sweep now).1 + (sweepAll instants (s.sweep now).2).1 +
      ((sweepAll instants (s.sweep now).2).2.sweep last).1 = (s.sweep last).1
    rw [Nat.add_assoc, hcount, hcount']

/-- **A sweep is exact, and its cadence does not matter.**

* It removes the tasks that have outlived their time, and their results.
* Every other task and every other result stays as it is, and so does the rest of the store.
* It answers how many tasks it has removed.
* After an earlier sweep, or several, a sweep leaves the store as it would have done alone, and the
  numbers of removed tasks add up to the one that it would have answered.
* A second sweep at the same instant removes nothing. -/
theorem sweep_exact :
    (∀ now,
      (∀ id t, s.get? id = some t → t.Outlived now →
        (s.sweep now).2.get? id = none ∧ (s.sweep now).2.result? id = none) ∧
      (∀ id, (∀ t, s.get? id = some t → ¬ t.Outlived now) →
        (s.sweep now).2.get? id = s.get? id ∧ (s.sweep now).2.result? id = s.result? id) ∧
      (s.sweep now).2 =
        { s with
          table := (s.sweep now).2.table
          keyed := (s.sweep now).2.keyed
          results := (s.sweep now).2.results } ∧
      (s.sweep now).1 + (s.sweep now).2.size = s.size) ∧
    (∀ t₁ t₂ : Timestamp, t₁.toNanos ≤ t₂.toNanos →
      ((s.sweep t₁).2.sweep t₂).2 = (s.sweep t₂).2 ∧
      (s.sweep t₁).1 + ((s.sweep t₁).2.sweep t₂).1 = (s.sweep t₂).1) ∧
    (∀ (instants : List Timestamp) (last : Timestamp),
      (∀ now ∈ instants, now.toNanos ≤ last.toNanos) →
      ((sweepAll instants s).2.sweep last).2 = (s.sweep last).2 ∧
      (sweepAll instants s).1 + ((sweepAll instants s).2.sweep last).1 = (s.sweep last).1) ∧
    ∀ now, (s.sweep now).2.sweep now = (0, (s.sweep now).2) := by
  refine ⟨fun now => ⟨fun id t hget hold => ?_, fun id hyoung => ?_, rfl, s.size_sweep now⟩,
    fun t₁ t₂ hle => s.sweep_sweep hle, fun instants last hle => s.sweepAll_sweep hle,
    fun now => ?_⟩
  · have hid : id ∈ s.expired now := s.mem_expired.mpr ⟨t, hget, hold⟩
    rw [get?_sweep, result?_sweep, if_pos hid, hget]
    exact ⟨Option.filter_some_neg (by simp [Task.isExpired_iff.mpr hold]), rfl⟩
  · have hid : id ∉ s.expired now := fun hmem =>
      (s.mem_expired.mp hmem).elim fun t ht => hyoung t ht.1 ht.2
    have hkept : ∀ t, s.get? id = some t → t.isExpired now = false := fun t hget =>
      Bool.eq_false_iff.mpr fun hold => hyoung t hget (Task.isExpired_iff.mp hold)
    rw [get?_sweep, result?_sweep, if_neg hid]
    refine ⟨?_, rfl⟩
    cases hget : s.get? id with
    | none => rfl
    | some t => exact Option.filter_some_pos (by simp [hkept t hget])
  · obtain ⟨hstore, hcount⟩ := s.sweep_sweep (Int.le_refl now.toNanos)
    exact Prod.ext (by omega) hstore

/-- A completed task that may get 1500 nanoseconds old. At this age it stays, and a nanosecond later
it goes with its result; the sweep before makes no difference. -/
theorem sweep_exact_boundary :
    ∃ s : TaskStore, s.contains "t1" = true ∧ s.result? "t1" = some .null ∧
      (s.sweep ⟨0, 1500⟩).1 = 0 ∧ (s.sweep ⟨0, 1500⟩).2.contains "t1" = true ∧
      (s.sweep ⟨0, 1501⟩).2.get? "t1" = none ∧ (s.sweep ⟨0, 1501⟩).2.result? "t1" = none ∧
      ((s.sweep ⟨0, 1500⟩).2.sweep ⟨0, 1501⟩).2 = (s.sweep ⟨0, 1501⟩).2 := by
  let task : Task :=
    { id := "t1", status := .completed, createdAt := ⟨0, 0⟩, lastUpdatedAt := ⟨0, 900⟩
      ttl := some ⟨1500⟩ }
  let s : TaskStore :=
    { config := {}
      draws := fun _ => []
      table := Ordered.empty.insert "t1" task
      keyed := Task.Keyed.empty.insert task
      results := [("t1", .null)] }
  obtain ⟨hone, htwo, -⟩ := s.sweep_exact
  have hold : task.Outlived ⟨0, 1501⟩ := ⟨⟨1500⟩, rfl, by decide⟩
  obtain ⟨htask, hresult⟩ := (hone ⟨0, 1501⟩).1 "t1" task rfl hold
  exact ⟨s, rfl, rfl, rfl, rfl, htask, hresult, (htwo ⟨0, 1500⟩ ⟨0, 1501⟩ (by decide)).1⟩

end TaskStore
end Switchboard
