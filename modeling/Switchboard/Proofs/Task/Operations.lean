import Mathlib.Data.List.Basic
import Switchboard.Task.Methods

/-!
# What the operations of a task store do

Tasks and results are kept apart, and an operation may write both. Here is one lemma for each
operation and each of the two, said through `TaskStore.get?` and `TaskStore.result?`, and one for
the number of tasks. A sweep is the same as deleting the expired tasks one after another
(`TaskStore.sweep_eq`).
-/

namespace Switchboard

/-! ### Tasks in order -/

namespace Task

/-- A task as a move along the graph leaves it. -/
def moved (t : Task) (now : Timestamp) (status : TaskStatus) (message : Option String) : Task :=
  { t with status, statusMessage := message, lastUpdatedAt := now }

/-- Tasks in the order of their identifiers, none of which is there twice. -/
def InOrder (ts : List Task) : Prop :=
  ts.Pairwise fun t u => t.id < u.id

theorem InOrder.nodup {ts : List Task} (h : InOrder ts) : (ts.map Task.id).Nodup := by
  refine List.pairwise_map.mpr (h.imp fun {t u} htu heq => ?_)
  exact String.lt_irrefl u.id (heq ▸ htu)

end Task

/-! ### Values by key -/

theorem lookup_cons_key {α : Type} (k id : String) (v : α) (l : List (String × α)) :
    ((k, v) :: l).lookup id = if id = k then some v else l.lookup id := by
  by_cases h : id = k
  · subst h
    simp
  · rw [List.lookup_cons, if_neg h, beq_false_of_ne h]

theorem lookup_filter_key {α : Type} (p : String → Bool) (id : String) (l : List (String × α)) :
    (l.filter fun r => p r.1).lookup id = if p id then l.lookup id else none := by
  induction l with
  | nil => simp
  | cons r l ih =>
    obtain ⟨k, v⟩ := r
    rw [lookup_cons_key, List.filter_cons]
    cases hp : p k with
    | true =>
      rw [if_pos rfl, lookup_cons_key, ih]
      split <;> simp_all
    | false =>
      rw [if_neg Bool.false_ne_true, ih]
      by_cases h : id = k <;> simp_all

attribute [ext] TaskStore

namespace TaskStore

variable (s : TaskStore) (now : Timestamp) (ttl poll : Option Duration) (id id' : String)
  (status : TaskStatus) (message : Option String) (v : Json)

/-- The table has each task once, under its own identifier. -/
theorem entries_eq : s.table.entries = s.tasks.map fun t => (t.id, t) := by
  rw [tasks, Ordered.values, List.map_map]
  refine (List.map_id _).symm.trans (List.map_congr_left fun e he => ?_)
  exact Prod.ext (s.keyed e he) rfl

/-- So the tasks say what the table is. -/
theorem table_eq {s s' : TaskStore} (h : s.tasks = s'.tasks) : s.table = s'.table := by
  apply Ordered.ext
  rw [entries_eq, entries_eq, h]

/-- A choice by key is one by identifier. -/
theorem values_filter (p : String → Bool) :
    (s.table.filter fun e => p e.1).values = s.tasks.filter fun t => p t.id := by
  show (s.table.entries.filter fun e => p e.1).map Prod.snd = s.tasks.filter fun t => p t.id
  rw [entries_eq, List.filter_map, List.map_map]
  exact List.map_id _

theorem inOrder : Task.InOrder s.tasks := by
  have h := s.table.inOrder
  rwa [entries_eq, List.pairwise_map] at h

theorem mem_tasks {s : TaskStore} {t : Task} : t ∈ s.tasks ↔ (t.id, t) ∈ s.table.entries := by
  rw [entries_eq, List.mem_map]
  constructor
  · intro ht
    exact ⟨t, ht, rfl⟩
  · rintro ⟨u, hu, heq⟩
    exact (Prod.mk.inj heq).2 ▸ hu

theorem get?_eq_some {s : TaskStore} {id : String} {t : Task} :
    s.get? id = some t ↔ t ∈ s.tasks ∧ t.id = id := by
  rw [get?, ← Ordered.mem_entries, mem_tasks]
  constructor
  · intro h
    obtain rfl : id = t.id := s.keyed _ h
    exact ⟨h, rfl⟩
  · rintro ⟨h, rfl⟩
    exact h

theorem contains_iff {s : TaskStore} {id : String} :
    s.contains id = true ↔ ∃ t ∈ s.tasks, t.id = id := by
  rw [contains, Option.isSome_iff_exists]
  exact exists_congr fun t => get?_eq_some

theorem length_tasks : s.tasks.length = s.size :=
  List.length_map _

/-! ### Creation -/

/-- The task that comes into being. -/
def newTask : Task :=
  { id := s.mint.1, status := .working, createdAt := now, lastUpdatedAt := now, ttl
    pollInterval := poll.or (s.config.defaultPollMillis.map .ofMillis) }

/-- Giving out an identifier changes the counters only. -/
theorem mint_frame : s.mint.2.config = s.config ∧ s.mint.2.table = s.table ∧
    s.mint.2.results = s.results := by
  simp only [mint]
  split <;> exact ⟨rfl, rfl, rfl⟩

theorem table_create :
    (s.create now ttl poll).2.table = s.table.insert s.mint.1 (s.newTask now ttl poll) := by
  simp only [create, newTask, s.mint_frame]

theorem get?_create :
    (s.create now ttl poll).2.get? id =
      if id = s.mint.1 then some (s.newTask now ttl poll) else s.get? id := by
  rw [get?, table_create, Ordered.get?_insert, get?]

theorem get?_create_self :
    (s.create now ttl poll).2.get? (s.create now ttl poll).1 = some (s.newTask now ttl poll) :=
  (s.get?_create now ttl poll _).trans (if_pos rfl)

theorem result?_create : (s.create now ttl poll).2.result? id = s.result? id :=
  congrArg (List.lookup id) s.mint_frame.2.2

theorem size_create {s : TaskStore} (hfree : s.contains s.mint.1 = false) :
    (s.create now ttl poll).2.size = s.size + 1 := by
  rw [contains, Option.isSome_eq_false_iff, Option.isNone_iff_eq_none] at hfree
  rw [size, table_create, Ordered.size_insert hfree, size]

/-! ### Moves along the graph -/

/-- The store after a task has moved. -/
def moveTask : TaskStore :=
  { s with
    table := s.table.modify id fun t => t.moved now status message
    keyed := s.keyed.modify id fun _ => rfl }

variable {s id} in
theorem transition_of_not_found (hget : s.get? id = none) :
    s.transition now id status message = (.error (.notFound id), s) := by
  rw [transition, hget]

variable {s id status} in
theorem transition_of_edge {t : Task} (hget : s.get? id = some t)
    (hedge : t.status.canBecome status = true) :
    s.transition now id status message =
      (.ok (t.moved now status message), s.moveTask now id status message) := by
  simp only [transition, hget, if_pos hedge]
  rfl

variable {s id status} in
theorem transition_of_no_edge {t : Task} (hget : s.get? id = some t)
    (hedge : t.status.canBecome status = false) :
    s.transition now id status message = (.error (.badTransition t.status status), s) := by
  simp only [transition, hget, hedge, Bool.false_eq_true, if_false]

/-- **A transition that is refused changes nothing**: it is refused before anything is written. -/
theorem eq_of_transition_error {s s' : TaskStore} {e : TaskError}
    (h : s.transition now id status message = (.error e, s')) : s' = s := by
  cases hget : s.get? id with
  | none =>
    rw [transition_of_not_found now status message hget] at h
    exact (Prod.mk.inj h).2.symm
  | some t =>
    cases hedge : t.status.canBecome status with
    | true =>
      rw [transition_of_edge now message hget hedge] at h
      cases (Prod.mk.inj h).1
    | false =>
      rw [transition_of_no_edge now message hget hedge] at h
      exact (Prod.mk.inj h).2.symm

theorem get?_moveTask :
    (s.moveTask now id status message).get? id' =
      if id' = id then (s.get? id).map fun t => t.moved now status message else s.get? id' :=
  Ordered.get?_modify id id' _ s.table

theorem size_moveTask : (s.moveTask now id status message).size = s.size :=
  Ordered.size_modify id _ s.table

/-! ### Results -/

theorem setResult_fst : (s.setResult id v).1 = s.contains id := by
  rw [setResult]
  split <;> simp_all

variable {s id} in
theorem setResult_of_not_contains (hid : s.contains id = false) :
    s.setResult id v = (false, s) := by
  rw [setResult, hid]
  rfl

variable {s id} in
theorem result?_setResult (hid : s.contains id = true) :
    (s.setResult id v).2.result? id' = if id' = id then some v else s.result? id' := by
  rw [setResult, if_pos hid, result?, lookup_cons_key,
    lookup_filter_key fun k => decide (k ≠ id)]
  by_cases h : id' = id <;> simp [h, result?]

theorem table_setResult : (s.setResult id v).2.table = s.table := by
  rw [setResult]
  split <;> rfl

theorem get?_setResult : (s.setResult id v).2.get? id' = s.get? id' := by
  rw [get?, table_setResult, get?]

/-! ### Removal -/

theorem get?_delete :
    (s.delete id).2.get? id' = if id' = id then none else s.get? id' :=
  Ordered.get?_erase id id' s.table

theorem result?_delete :
    (s.delete id).2.result? id' = if id' = id then none else s.result? id' := by
  rw [delete, result?, lookup_filter_key fun k => decide (k ≠ id)]
  by_cases h : id' = id <;> simp [h, result?]

variable {s id} in
theorem size_delete (hid : s.contains id = true) : (s.delete id).2.size + 1 = s.size := by
  obtain ⟨t, hget⟩ := Option.isSome_iff_exists.mp hid
  exact Ordered.size_erase hget

variable {s id} in
theorem table_delete_of_not_contains (hid : s.contains id = false) :
    (s.delete id).2.table = s.table := by
  rw [contains, Option.isSome_eq_false_iff, Option.isNone_iff_eq_none] at hid
  exact Ordered.erase_of_get?_eq_none hid

/-- The identifiers of the tasks that are older than they may get. -/
def expired : List String :=
  (s.tasks.filter fun t => t.isExpired now).map Task.id

theorem foldl_delete (ids : List String) :
    ids.foldl (fun s id => (s.delete id).2) s =
      { s with
        table := s.table.filter fun e => e.1 ∉ ids
        keyed := s.keyed.filter _
        results := s.results.filter fun r => r.1 ∉ ids } := by
  induction ids generalizing s with
  | nil => ext1 <;> simp [Ordered.filter]
  | cons id ids ih =>
    rw [List.foldl_cons, ih]
    ext1 <;> simp [delete, Ordered.erase, Ordered.filter, List.filter_filter, Bool.and_comm]

/-- A sweep deletes the expired tasks one after another. -/
theorem sweep_eq :
    (s.sweep now).2 = (s.expired now).foldl (fun s id => (s.delete id).2) s :=
  (s.foldl_delete (s.expired now)).symm

/-! ### Methods -/

variable (params : Option Json)

/-- The task that has been created is there, so that it can be answered. -/
theorem perform_create :
    s.perform now .create params =
      match readParams createParams params with
      | .ok (ttl, poll) => (.ok (s.newTask now ttl poll).toJson, (s.create now ttl poll).2)
      | .error e => (.error e, s) := by
  rw [perform]
  cases readParams createParams params with
  | error e => rfl
  | ok spans => simp only [taskById, get?_create_self]

theorem perform_cancel :
    s.perform now .cancel params =
      match readParams idParams params with
      | .ok id =>
        match s.cancel now id with
        | (.ok t, s') => (.ok t.toJson, s')
        | (.error e, s') => (.error (refusal e), s')
      | .error e => (.error e, s) := by
  rw [perform]
  cases readParams idParams params <;> rfl

/-- **A method that answers an error has changed nothing.** Parameters are read and tasks looked up
before anything is written, and after it nothing can fail. -/
theorem eq_of_perform_error {s s' : TaskStore} {now : Timestamp} {params : Option Json}
    {method : TaskMethod} {e : ErrorObject} (h : s.perform now method params = (.error e, s')) :
    s' = s := by
  cases method with
  | create =>
    rw [perform_create] at h
    split at h
    · cases (Prod.mk.inj h).1
    · exact (Prod.mk.inj h).2.symm
  | cancel =>
    rw [perform_cancel] at h
    split at h
    · split at h
      · cases (Prod.mk.inj h).1
      · next hcancel =>
        rw [← (Prod.mk.inj h).2]
        exact eq_of_transition_error now _ .cancelled none hcancel
    · exact (Prod.mk.inj h).2.symm
  | get | list | result => exact (Prod.mk.inj h).2.symm

theorem answer?_eq_failure {s s' : TaskStore} {now : Timestamp} {r : Request} {e : ErrorObject} :
    s.answer? now r = some (.failure e, s') ↔
      ∃ method, TaskMethod.ofName? r.method = some method ∧
        s.perform now method r.params = (.error e, s') := by
  rw [answer?, Option.map_eq_some_iff]
  refine exists_congr fun method => and_congr_right fun _ => ?_
  rcases s.perform now method r.params with ⟨_ | v, left⟩ <;> simp [outcomeOf]

/-- A request that fails changes nothing. -/
theorem eq_of_answer?_failure {s s' : TaskStore} {now : Timestamp} {r : Request}
    {e : ErrorObject} (h : s.answer? now r = some (.failure e, s')) : s' = s := by
  obtain ⟨method, -, hperform⟩ := answer?_eq_failure.mp h
  exact eq_of_perform_error hperform

end TaskStore
end Switchboard
