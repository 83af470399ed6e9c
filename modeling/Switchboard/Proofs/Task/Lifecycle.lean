import Switchboard.Proofs.Task.Soundness

/-!
# The lives of tasks

A task starts out working and moves through the graph, whoever moves it: a transition, an update, a
cancellation or a request of a peer. Nothing else of it changes but its message and the time of its
last move. Once its status is final it stays as it is until it is removed
(`Chronicle.frozen`), since no edge leads out of such a status.

`TaskStore.Run.follows_graph` puts this together, with what a transition does to the rest of the
store, and what one that is refused does not do.
-/

namespace Switchboard

/-- A path through the graph ends with its first final status. -/
theorem TaskStatus.countP_isFinal_le_one {s : TaskStatus} {statuses : List TaskStatus}
    (path : (s :: statuses).IsChain Edge) : statuses.countP isFinal ≤ 1 := by
  induction statuses generalizing s with
  | nil => exact Nat.zero_le 1
  | cons t statuses ih =>
    obtain ⟨-, hrest⟩ := List.isChain_cons_cons.mp path
    cases ht : t.isFinal with
    | true =>
      cases statuses with
      | nil => simp [ht]
      | cons u statuses =>
        exact absurd (List.isChain_cons_cons.mp hrest).1 (not_edge_of_isFinal ht)
    | false =>
      rw [List.countP_cons_of_neg (by simp [ht])]
      exact ih hrest

namespace Chronicle

variable {h before life later : List TaskEvent} {t : Task} {entry : TaskEntry} {id : String}

/-- **A final task is not moved any more**, and stays as it is until it is removed. -/
theorem frozen (hc : Chronicle (h ++ later)) (there : replay h id = some entry)
    (final : entry.task.status.isFinal = true) (lives : .removed id ∉ later) :
    (∃ result?, replay (h ++ later) id = some ⟨entry.task, result?⟩) ∧
      ∀ now status message, .moved id now status message ∉ later := by
  induction later using List.reverseRecOn with
  | nil => exact ⟨⟨entry.result?, by rw [List.append_nil, there]⟩, by simp⟩
  | append_singleton later e ih =>
    rw [← List.append_assoc] at hc ⊢
    obtain ⟨⟨result?, hthere⟩, hmoves⟩ :=
      ih hc.of_append fun hmem => lives (List.mem_append_left _ hmem)
    have hcases := hc.next_cases hthere fun he => lives (by simp [he])
    rw [replay_concat]
    rcases hcases with hother | ⟨now, status, message, rfl, hedge⟩ | ⟨v, rfl⟩
    · refine ⟨⟨result?, by rw [TaskEvent.write_of_ne hother, hthere]⟩, ?_⟩
      intro now status message hmem
      rcases List.mem_append.mp hmem with hmem | hmem
      · exact hmoves now status message hmem
      · exact hother (List.mem_singleton.mp hmem ▸ rfl)
    · exact absurd hedge (TaskStatus.not_edge_of_isFinal final)
    · refine ⟨⟨some v, ?_⟩, by simpa using hmoves⟩
      rw [TaskEvent.write, TaskEvent.subject, if_pos rfl, hthere]
      rfl

/-- How a task begins. -/
theorem begins (hc : Chronicle (before ++ .created t :: life)) :
    t.status = .working ∧ t.statusMessage = none ∧ t.lastUpdatedAt = t.createdAt :=
  (hc before (.created t) life rfl).2

/-- The statuses of a task are a path from working, with one final status at most. -/
theorem path {rest : List TaskEvent} (hc : Chronicle (before ++ .created t :: (life ++ rest)))
    (lives : .removed t.id ∉ life) :
    (TaskStatus.working :: life.filterMap (TaskEvent.status? t.id)).IsChain TaskStatus.Edge ∧
      (life.filterMap (TaskEvent.status? t.id)).countP TaskStatus.isFinal ≤ 1 := by
  rw [← List.cons_append, ← List.append_assoc] at hc
  have hpath := hc.of_append.isChain_life lives
  rw [hc.of_append.begins.1] at hpath
  exact ⟨hpath, TaskStatus.countP_isFinal_le_one hpath⟩

/-- As long as the clock does not run backwards, no task was updated before it was created. -/
theorem createdAt_le (hc : Chronicle (before ++ .created t :: life))
    (clock : ((before ++ .created t :: life).filterMap TaskEvent.time?).Pairwise
      fun a b => b.lt a = false) :
    (life.foldl Task.follow t).lastUpdatedAt.lt t.createdAt = false := by
  rw [List.filterMap_append, List.filterMap_cons] at clock
  have hlater := (List.pairwise_cons.mp (List.pairwise_append.mp clock).2.1).1
  rcases t.lastUpdatedAt_foldl life with hsame | hmoved
  · rw [hsame, hc.begins.2.2]
    simp [Timestamp.lt]
  · exact hlater _ hmoved

end Chronicle

namespace TaskStore

variable {config : TaskConfig} {draws : Nat → List (BitVec 128)} {h : List TaskEvent}
  {s : TaskStore}

/-- A transition along an edge moves one task, and changes nothing else in the store. -/
theorem transition_frame {id : String} {t : Task} {status : TaskStatus}
    (hget : s.get? id = some t) (hedge : t.status.Edge status) (now : Timestamp)
    (message : Option String) :
    ∃ s', s.transition now id status message = (.ok (t.moved now status message), s') ∧
      s' = { s with table := s'.table, keyed := s'.keyed } ∧
      s'.get? id = some (t.moved now status message) ∧
      ∀ id', id' ≠ id → s'.get? id' = s.get? id' := by
  refine ⟨_, transition_of_edge now message hget (TaskStatus.canBecome_iff_edge.mpr hedge), rfl, ?_,
    fun id' hne => ?_⟩
  · rw [get?_moveTask, if_pos rfl, hget, Option.map_some]
  · rw [get?_moveTask, if_neg hne]

/-- **Tasks follow the graph, and a final task stays as it is.**

* The statuses of a task, from its creation on, are a path through the graph that starts with
  working, and at most one of its moves is to a final status.
* A task that is there is what its moves have made of the task that was created. Its identifier, the
  time of its creation, its time to live and its poll interval are those it was created with.
* A transition along an edge replaces the status, the message and the time of the last update of its
  task, and changes nothing else. Any other one is refused, with the statuses that have no edge or
  the identifier that no task has. An update says only whether it was a transition, and a
  cancellation is one.
* What is refused changes nothing, asked for by the owner of the store or by a request.
* Once its status is final, a task is not moved any more, and stays as it is until it is removed.
* If the clock does not run backwards, no task was updated before it was created. -/
theorem Run.follows_graph (run : Run (.empty config draws) h s) :
    (∀ before t life rest, h = before ++ .created t :: (life ++ rest) → .removed t.id ∉ life →
      (TaskStatus.working :: life.filterMap (TaskEvent.status? t.id)).IsChain TaskStatus.Edge ∧
      (life.filterMap (TaskEvent.status? t.id)).countP TaskStatus.isFinal ≤ 1) ∧
    (∀ before t life, h = before ++ .created t :: life → .removed t.id ∉ life →
      s.get? t.id = some (life.foldl Task.follow t) ∧ t.Kept (life.foldl Task.follow t) ∧
      (life.foldl Task.follow t).status =
        (life.filterMap (TaskEvent.status? t.id)).getLast?.getD .working) ∧
    (∀ now id status message,
      (∀ t, s.get? id = some t → t.status.Edge status →
        ∃ s', s.transition now id status message = (.ok (t.moved now status message), s') ∧
          s.update now id status message = (true, s') ∧
          s' = { s with table := s'.table, keyed := s'.keyed } ∧
          s'.get? id = some (t.moved now status message) ∧
          ∀ id', id' ≠ id → s'.get? id' = s.get? id') ∧
      (∀ t, s.get? id = some t → ¬ t.status.Edge status →
        s.transition now id status message = (.error (.badTransition t.status status), s)) ∧
      (s.get? id = none → s.transition now id status message = (.error (.notFound id), s)) ∧
      s.cancel now id = s.transition now id .cancelled none ∧
      s.cancelTask now id = s.update now id .cancelled none) ∧
    (∀ now id status message e s', s.transition now id status message = (.error e, s') →
      s' = s ∧ s.update now id status message = (false, s) ∧
      (TaskUse.transition now id status message).apply s = s) ∧
    (∀ now r e s', s.answer? now r = some (.failure e, s') → s' = s) ∧
    (∀ h' s' t, Run s h' s' → s.get? t.id = some t → t.status.isFinal = true →
      .removed t.id ∉ h' →
      s'.get? t.id = some t ∧ ∀ now status message, .moved t.id now status message ∉ h') ∧
    ((h.filterMap TaskEvent.time?).Pairwise (fun a b => b.lt a = false) →
      ∀ id t, s.get? id = some t → t.lastUpdatedAt.lt t.createdAt = false) := by
  have hs : Sound h s := run.sound
  refine ⟨?_, ?_, fun now id status message => ⟨fun t hget hedge => ?_, fun t hget hedge => ?_,
    fun hget => ?_, rfl, rfl⟩, fun now id status message e s' herror => ?_,
    fun now r e s' hanswer => eq_of_answer?_failure hanswer,
    fun h' s' t later hget final lives => ?_, fun clock id t hget => ?_⟩
  · rintro before t life rest rfl lives
    exact hs.told.path lives
  · rintro before t life rfl lives
    refine ⟨?_, t.kept_foldl life, ?_⟩
    · rw [hs.tasks, hs.told.replay_life lives]
      rfl
    · rw [t.status_foldl life, hs.told.begins.1]
  · obtain ⟨s', hok, hframe⟩ := transition_frame hget hedge now message
    exact ⟨s', hok, by rw [update, hok]; rfl, hframe⟩
  · have hno : t.status.canBecome status = false := by
      rwa [← TaskStatus.canBecome_iff_edge, Bool.not_eq_true] at hedge
    exact transition_of_no_edge now message hget hno
  · exact transition_of_not_found now status message hget
  · obtain rfl : s' = s := eq_of_transition_error now id status message herror
    exact ⟨rfl, by rw [update, herror]; rfl, by rw [TaskUse.apply, herror]⟩
  · obtain ⟨entry, there, rfl⟩ := hs.exists_entry hget
    have hs' : Sound (h ++ h') s' := (run.trans later).sound
    obtain ⟨⟨result?, hthere⟩, hmoves⟩ := hs'.told.frozen there final lives
    refine ⟨?_, hmoves⟩
    rw [hs'.tasks, hthere]
    rfl
  · obtain ⟨entry, there, rfl⟩ := hs.exists_entry hget
    obtain ⟨before, t, life, rfl, rfl, -, rfl⟩ := hs.told.exists_life there
    rw [(t.kept_foldl life).createdAt]
    exact hs.told.createdAt_le clock

/-- A task waits for input, goes on and is completed. Then a request of the peer to cancel it is
refused. -/
theorem follows_graph_completed :
    ∃ h s, Run (.empty { idStrategy := .sequential "t" } fun _ => []) h s ∧
      (∃ t, s.get? "t1" = some t ∧ t.status = .completed ∧ t.statusMessage = none ∧
        t.lastUpdatedAt.lt t.createdAt = false ∧
        ∀ h' s', Run s h' s' → .removed "t1" ∉ h' → s'.get? "t1" = some t) ∧
      [TaskStatus.working, .inputRequired, .working, .completed].IsChain TaskStatus.Edge ∧
      s.transition ⟨9, 0⟩ "t1" .cancelled none =
        (.error (.badTransition .completed .cancelled), s) := by
  let task : Task :=
    { id := "t1", status := .working, createdAt := ⟨0, 0⟩, lastUpdatedAt := ⟨0, 0⟩ }
  let moves : List TaskEvent :=
    [.moved "t1" ⟨1, 0⟩ .inputRequired (some "name?"), .moved "t1" ⟨2, 0⟩ .working none,
      .moved "t1" ⟨3, 0⟩ .completed none]
  have run : Run (.empty { idStrategy := .sequential "t" } fun _ => [])
      ([] ++ .created task :: moves) _ :=
    ((((Run.start.step (.create ⟨0, 0⟩ none none)
      fun _ _ _ _ => ⟨0, by exact Nat.two_pow_pos 64, rfl⟩).step
      (.transition ⟨1, 0⟩ "t1" .inputRequired (some "name?")) nofun).step
      (.update ⟨2, 0⟩ "t1" .working none) nofun).step
      (.transition ⟨3, 0⟩ "t1" .completed none) nofun).step
      (.answer ⟨4, 0⟩ ⟨.number 1, "tasks/cancel", some (.obj [("taskId", .str "t1")])⟩) nofun
  obtain ⟨hpath, hthere, hmove, -, -, hfrozen, hclock⟩ := run.follows_graph
  have hget := (hthere [] task moves rfl (by simp [moves])).1
  refine ⟨_, _, run, ⟨_, hget, rfl, rfl, ?_, fun h' s' later lives => ?_⟩, ?_, ?_⟩
  · exact hclock (by decide) "t1" _ hget
  · exact (hfrozen h' s' (moves.foldl Task.follow task) later hget rfl lives).1
  · exact (hpath [] task moves [] rfl (by simp [moves])).1
  · exact (hmove ⟨9, 0⟩ "t1" .cancelled none).2.1 _ hget (TaskStatus.not_edge_of_isFinal rfl)

end TaskStore
end Switchboard
