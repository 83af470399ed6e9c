import Switchboard.Proofs.Task.Chronicle

/-!
# A task store is one map

Tasks and results are kept apart, and five operations write them. `TaskStore.Sound` says that they
are nonetheless the two halves of one map, the one that the events make: no task is without its
entry, and no result without its task. Every operation keeps it, and so it holds of every store
there can be (`TaskStore.Run.sound`).

Read off the map are the results: a task has one if one was stored in its life, and that is the
last one (`TaskStore.Run.one_map`).
-/

namespace Switchboard
namespace TaskStore

variable {config : TaskConfig} {draws : Nat → List (BitVec 128)} {h : List TaskEvent}
  {s : TaskStore} {id : String} {t : Task}

/-- A store is what events have made of one map. -/
structure Sound (h : List TaskEvent) (s : TaskStore) : Prop where
  tasks : ∀ id, s.get? id = (replay h id).map TaskEntry.task
  results : ∀ id, s.result? id = (replay h id).bind TaskEntry.result?
  told : Chronicle h
  inRange : s.InRange
  size : s.size + h.countP TaskEvent.isRemoved = h.countP TaskEvent.isCreated

theorem sound_empty (config : TaskConfig) (draws : Nat → List (BitVec 128)) :
    Sound [] (.empty config draws) where
  tasks _ := rfl
  results _ := rfl
  told := .nil
  inRange := by
    cases hstrategy : config.idStrategy <;>
      simp [InRange, empty, hstrategy, IdStrategy.modulus, UInt64.size]
  size := rfl

namespace Sound

theorem contains_eq (hs : Sound h s) (id : String) : s.contains id = (replay h id).isSome := by
  rw [contains, hs.tasks, Option.isSome_map]

theorem absent (hs : Sound h s) (hid : s.contains id = false) : replay h id = none := by
  rwa [hs.contains_eq, Option.isSome_eq_false_iff, Option.isNone_iff_eq_none] at hid

/-- No result is without its task. -/
theorem result?_of_not_contains (hs : Sound h s) (hid : s.contains id = false) :
    s.result? id = none := by
  rw [hs.results, hs.absent hid]
  rfl

theorem exists_entry (hs : Sound h s) (hget : s.get? id = some t) :
    ∃ e, replay h id = some e ∧ e.task = t :=
  Option.map_eq_some_iff.mp ((hs.tasks id).symm.trans hget)

/-- An event is written to the entry that it is about, and to no other. -/
theorem concat {s' : TaskStore} {e : TaskEvent} (hs : Sound h s) (fits : e.Fits (replay h))
    (task : s'.get? e.subject = (e.change (replay h e.subject)).map TaskEntry.task)
    (result : s'.result? e.subject = (e.change (replay h e.subject)).bind TaskEntry.result?)
    (others : ∀ id, id ≠ e.subject → s'.get? id = s.get? id ∧ s'.result? id = s.result? id)
    (inRange : s'.InRange)
    (size : s'.size + [e].countP TaskEvent.isRemoved = s.size + [e].countP TaskEvent.isCreated) :
    Sound (h ++ [e]) s' where
  tasks id := by
    rw [replay_concat]
    by_cases hid : id = e.subject
    · rw [hid, e.write_subject, task]
    · rw [e.write_of_ne (Ne.symm hid), (others id hid).1, hs.tasks]
  results id := by
    rw [replay_concat]
    by_cases hid : id = e.subject
    · rw [hid, e.write_subject, result]
    · rw [e.write_of_ne (Ne.symm hid), (others id hid).2, hs.results]
  told := hs.told.concat fits
  inRange := inRange
  size := by
    rw [List.countP_append, List.countP_append, ← hs.size]
    omega

/-! ### One operation -/

/-- A task is created, under an identifier that is free. -/
theorem create (hs : Sound h s) (room : s.HasRoom) (now : Timestamp) (ttl poll : Option Duration) :
    Sound (h ++ [.created (s.newTask now ttl poll)]) (s.create now ttl poll).2 := by
  have hfree : s.contains s.mint.1 = false := contains_mint hs.inRange room
  refine hs.concat ⟨hs.absent hfree, rfl, rfl, rfl⟩ ?_ ?_ (fun id hid => ?_) hs.inRange.mint ?_
  · exact (s.get?_create now ttl poll _).trans (if_pos rfl)
  · exact (s.result?_create now ttl poll s.mint.1).trans (hs.result?_of_not_contains hfree)
  · exact ⟨(s.get?_create now ttl poll id).trans (if_neg hid), s.result?_create now ttl poll id⟩
  · exact size_create now ttl poll hfree

/-- A task is moved along an edge. -/
theorem move (hs : Sound h s) (hget : s.get? id = some t) {status : TaskStatus}
    (hedge : t.status.Edge status) (now : Timestamp) (message : Option String) :
    Sound (h ++ [.moved id now status message]) (s.moveTask now id status message) := by
  obtain ⟨e, there, rfl⟩ := hs.exists_entry hget
  refine hs.concat ⟨e, there, hedge⟩ ?_ ?_ (fun id' hid => ?_) hs.inRange ?_
  · rw [TaskEvent.subject, get?_moveTask, if_pos rfl, hget, there]
    rfl
  · exact (hs.results id).trans (by rw [TaskEvent.subject, there]; rfl)
  · exact ⟨(s.get?_moveTask now id id' status message).trans (if_neg hid), rfl⟩
  · exact s.size_moveTask now id status message

/-- A result is stored for a task. -/
theorem store (hs : Sound h s) (hid : s.contains id = true) (v : Json) :
    Sound (h ++ [.stored id v]) (s.setResult id v).2 := by
  have there : (replay h id).isSome = true := (hs.contains_eq id).symm.trans hid
  have htasks : ∀ id', (s.setResult id v).2.get? id' = s.get? id' :=
    (s.get?_setResult id · v)
  refine hs.concat there ?_ ?_ (fun id' hne => ⟨htasks id', ?_⟩) ?_ ?_
  · rw [TaskEvent.subject, htasks, hs.tasks, TaskEvent.change, Option.map_map]
    rfl
  · obtain ⟨e, there⟩ := Option.isSome_iff_exists.mp there
    rw [TaskEvent.subject, result?_setResult id v hid, if_pos rfl, there]
    rfl
  · exact (result?_setResult id' v hid).trans (if_neg hne)
  · rw [setResult, if_pos hid]
    exact hs.inRange
  · rw [TaskStore.size, table_setResult]
    rfl

/-- A task is removed. -/
theorem delete (hs : Sound h s) (hid : s.contains id = true) :
    Sound (h ++ [.removed id]) (s.delete id).2 := by
  have there : (replay h id).isSome = true := (hs.contains_eq id).symm.trans hid
  refine hs.concat there ?_ ?_ (fun id' hne => ⟨?_, ?_⟩) hs.inRange ?_
  · exact (s.get?_delete id id).trans (if_pos rfl)
  · exact (s.result?_delete id id).trans (if_pos rfl)
  · exact (s.get?_delete id id').trans (if_neg hne)
  · exact (s.result?_delete id id').trans (if_neg hne)
  · exact size_delete hid

/-- Nothing is removed where no task is: there is no result either. -/
theorem delete_of_not_contains (hs : Sound h s) (hid : s.contains id = false) :
    Sound h (s.delete id).2 where
  tasks id' := by rw [get?, table_delete_of_not_contains hid, ← get?, hs.tasks]
  results id' := by
    rw [result?_delete]
    split
    · next heq => rw [heq, hs.absent hid]; rfl
    · exact hs.results id'
  told := hs.told
  inRange := hs.inRange
  size := by
    rw [TaskStore.size, table_delete_of_not_contains hid]
    exact hs.size

/-- Tasks are removed, one after another. -/
theorem deleteAll (hs : Sound h s) {ids : List String} (hnodup : ids.Nodup)
    (hids : ∀ id ∈ ids, s.contains id = true) :
    Sound (h ++ ids.map .removed) (ids.foldl (fun s id => (s.delete id).2) s) := by
  induction ids generalizing h s with
  | nil => rwa [List.map_nil, List.append_nil]
  | cons id ids ih =>
    obtain ⟨hid, hnodup⟩ := List.nodup_cons.mp hnodup
    rw [List.map_cons, List.append_cons, List.foldl_cons]
    refine ih (hs.delete (hids id List.mem_cons_self)) hnodup fun id' hmem => ?_
    have hne : id' ≠ id := fun heq => hid (heq ▸ hmem)
    rw [contains, get?_delete, if_neg hne]
    exact hids id' (List.mem_cons_of_mem id hmem)

theorem sweep (hs : Sound h s) (now : Timestamp) :
    Sound (h ++ (s.expired now).map .removed) (s.sweep now).2 := by
  rw [sweep_eq]
  refine hs.deleteAll ?_ fun id hid => ?_
  · exact s.inOrder.nodup.sublist (List.filter_sublist.map Task.id)
  · obtain ⟨t, ht, rfl⟩ := List.mem_map.mp hid
    exact contains_iff.mpr ⟨t, (List.mem_filter.mp ht).1, rfl⟩

/-! ### Any uses -/

theorem transition (hs : Sound h s) (now : Timestamp) (id : String) (status : TaskStatus)
    (message : Option String) :
    Sound (h ++ (TaskChange.transition now id status message).events s)
      ((TaskChange.transition now id status message).apply s) := by
  rw [TaskChange.events, TaskChange.apply, TaskStore.update]
  cases hget : s.get? id with
  | none =>
    rw [transition_of_not_found now status message hget]
    exact (List.append_nil h).symm ▸ hs
  | some t =>
    cases hedge : t.status.canBecome status with
    | true =>
      rw [transition_of_edge now message hget hedge]
      exact hs.move hget (TaskStatus.canBecome_iff_edge.mp hedge) now message
    | false =>
      rw [transition_of_no_edge now message hget hedge]
      exact (List.append_nil h).symm ▸ hs

theorem change (hs : Sound h s) (c : TaskChange)
    (room : ∀ now ttl poll, c = .create now ttl poll → s.HasRoom) :
    Sound (h ++ c.events s) (c.apply s) := by
  cases c with
  | create now ttl poll => exact hs.create (room now ttl poll rfl) now ttl poll
  | transition now id status message => exact hs.transition now id status message
  | setResult id v =>
    rw [TaskChange.events, TaskChange.apply, setResult_fst]
    cases hid : s.contains id with
    | true => exact hs.store hid v
    | false =>
      rw [setResult_of_not_contains v hid]
      simpa using hs
  | delete id =>
    have hanswer : (s.delete id).1 = s.contains id := rfl
    rw [TaskChange.events, TaskChange.apply, hanswer]
    cases hid : s.contains id with
    | true => exact hs.delete hid
    | false => simpa using hs.delete_of_not_contains hid
  | sweep now => exact hs.sweep now

theorem use (hs : Sound h s) (use : TaskUse)
    (room : ∀ now ttl poll, use.change? = some (.create now ttl poll) → s.HasRoom) :
    Sound (h ++ use.events s) (use.apply s) := by
  rw [TaskUse.apply_eq, TaskUse.events]
  cases hchange : use.change? with
  | none => simpa using hs
  | some c => exact hs.change c fun now ttl poll hc => room now ttl poll (hc ▸ hchange)

end Sound

/-- **Every store there can be is what its events have made of one map.** -/
theorem Run.sound (run : Run (.empty config draws) h s) : Sound h s := by
  induction run with
  | start => exact sound_empty config draws
  | step run use room ih => exact ih.use use room

/-! ### Results -/

/-- The last result that is stored. -/
theorem getLast?_results_eq_some {life : List TaskEvent} {v : Json} :
    (life.filterMap (TaskEvent.result? id)).getLast? = some v ↔
      ∃ since later, life = since ++ .stored id v :: later ∧ ∀ w, .stored id w ∉ later := by
  have hstored : ∀ {e : TaskEvent} {w : Json}, e.result? id = some w ↔ e = .stored id w := by
    intro e w
    cases e with
    | stored id' w' => by_cases hid : id' = id <;> simp [TaskEvent.result?, hid]
    | created | moved | removed => simp [TaskEvent.result?]
  constructor
  · intro hlast
    obtain ⟨ws, hws⟩ := List.getLast?_eq_some_iff.mp hlast
    obtain ⟨front, rest, rfl, -, hrest⟩ := List.filterMap_eq_append_iff.mp hws
    obtain ⟨since, e, later, rfl, -, he, hlater⟩ := List.filterMap_eq_cons_iff.mp hrest
    obtain rfl := hstored.mp he
    refine ⟨front ++ since, later, by simp, fun w hmem => ?_⟩
    have hnone := List.filterMap_eq_nil_iff.mp hlater _ hmem
    rw [hstored.mpr rfl] at hnone
    contradiction
  · rintro ⟨since, later, rfl, hnone⟩
    have hlater : later.filterMap (TaskEvent.result? id) = [] := by
      refine List.filterMap_eq_nil_iff.mpr fun e he => ?_
      refine Option.eq_none_iff_forall_ne_some.mpr fun w hw => ?_
      exact hnone w (hstored.mp hw ▸ he)
    rw [List.filterMap_append, List.filterMap_cons, hstored.mpr rfl, hlater,
      List.getLast?_concat]

/-- **A task store behaves as one map** from identifiers to a task and perhaps its result.

* Tasks and results are the two halves of what the events have made of one map.
* A task is there if it was created and not removed since.
* It has a result if one was stored since it was created, and that is the last one. So no result
  outlives its task, and none is there before it.
* Whether a result could be stored, and whether a task could be removed, is whether the task is
  there.
* A new task has an identifier that no task has, and no result. No other entry changes.
* There are as many tasks as were created and not removed.
* Every task is kept under its own identifier, and found under it, and nothing else is. -/
theorem Run.one_map (run : Run (.empty config draws) h s) :
    (∀ id, s.get? id = (replay h id).map TaskEntry.task ∧
      s.result? id = (replay h id).bind TaskEntry.result?) ∧
    (∀ id, s.contains id = true ↔
      ∃ before t life, h = before ++ .created t :: life ∧ t.id = id ∧ .removed id ∉ life) ∧
    (∀ id v, s.result? id = some v ↔
      ∃ before t since later, h = before ++ .created t :: (since ++ .stored id v :: later) ∧
        t.id = id ∧ .removed id ∉ since ++ later ∧ ∀ w, .stored id w ∉ later) ∧
    (∀ id v, (s.setResult id v).1 = s.contains id) ∧
    (∀ id, (s.delete id).1 = s.contains id) ∧
    (∀ now ttl poll, s.HasRoom →
      let (id, s') := s.create now ttl poll
      s.contains id = false ∧ s'.get? id = some (s.newTask now ttl poll) ∧ s'.result? id = none ∧
        ∀ id', id' ≠ id → s'.get? id' = s.get? id' ∧ s'.result? id' = s.result? id') ∧
    s.size + h.countP TaskEvent.isRemoved = h.countP TaskEvent.isCreated ∧
    (∀ e ∈ s.table.entries, e.1 = e.2.id) ∧
    ∀ id t, s.get? id = some t ↔ t ∈ s.tasks ∧ t.id = id := by
  have hs : Sound h s := run.sound
  refine ⟨fun id => ⟨hs.tasks id, hs.results id⟩, fun id => ?_, fun id v => ?_,
    fun id v => s.setResult_fst id v, fun id => rfl, fun now ttl poll room => ?_, hs.size,
    s.keyed, fun id t => get?_eq_some⟩
  · rw [hs.contains_eq, hs.told.isSome_replay_iff]
  · rw [hs.results]
    constructor
    · intro hresult
      obtain ⟨e, there, hv⟩ := Option.bind_eq_some_iff.mp hresult
      obtain ⟨before, t, life, rfl, rfl, lives, rfl⟩ := hs.told.exists_life there
      obtain ⟨since, later, rfl, hlast⟩ := getLast?_results_eq_some.mp hv
      exact ⟨before, t, since, later, rfl, rfl, by simpa using lives, hlast⟩
    · rintro ⟨before, t, since, later, rfl, rfl, lives, hlast⟩
      rw [hs.told.replay_life (by simpa using lives), Option.bind_some]
      exact getLast?_results_eq_some.mpr ⟨since, later, rfl, hlast⟩
  · have hfree : s.contains s.mint.1 = false := contains_mint hs.inRange room
    refine ⟨hfree, s.get?_create_self now ttl poll, ?_, fun id' hne => ⟨?_, ?_⟩⟩
    · exact (s.result?_create now ttl poll s.mint.1).trans (hs.result?_of_not_contains hfree)
    · exact (s.get?_create now ttl poll id').trans (if_neg hne)
    · exact s.result?_create now ttl poll id'

/-- Two results are stored for a first task, and one for a second task that is removed. -/
theorem one_map_two_tasks :
    ∃ h s, Run (.empty { idStrategy := .sequential "t" } fun _ => []) h s ∧
      s.result? "t1" = some (.int 2) ∧ s.result? "t2" = none ∧ s.contains "t2" = false ∧
      s.size + 1 = 2 := by
  let task (id : String) : Task :=
    { id, status := .working, createdAt := ⟨0, 0⟩, lastUpdatedAt := ⟨0, 0⟩ }
  let since : List TaskEvent :=
    [.stored "t1" (.int 1), .created (task "t2"), .stored "t2" .null]
  have run : Run (.empty { idStrategy := .sequential "t" } fun _ => [])
      ([] ++ .created (task "t1") :: (since ++ .stored "t1" (.int 2) :: [.removed "t2"])) _ :=
    (((((Run.start.step (.create ⟨0, 0⟩ none none)
      fun _ _ _ _ => ⟨0, by exact Nat.two_pow_pos 64, rfl⟩).step
      (.setResult "t1" (.int 1)) nofun).step
      (.create ⟨0, 0⟩ none none)
      fun _ _ _ _ => ⟨0, by exact Nat.two_pow_pos 64, rfl⟩).step
      (.setResult "t2" .null) nofun).step (.setResult "t1" (.int 2)) nofun).step
      (.delete "t2") nofun
  obtain ⟨-, -, hresult, -, -, -, hsize, -⟩ := run.one_map
  refine ⟨_, _, run, (hresult "t1" (.int 2)).mpr ⟨[], _, since, _, rfl, rfl, ?_, ?_⟩, rfl, rfl,
    hsize⟩
  · simp [since]
  · simp

end TaskStore
end Switchboard
