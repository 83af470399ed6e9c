import Switchboard.Proofs.Service.Turns

/-!
# A job does not bring its task back

A job is on its way as long as its task is live at each of its turns: then it has done what its
script says for the turns that it has had (`Job.OnTrack`). Once the task was not live at a turn of
the job, there is no step and no result to come, and since the task will never be live again, the
job does not complete it either (`Job.Stopped`). From its way, a turn of the job leads to either
(`Job.OnTrack.turn_job`).
-/

namespace Switchboard

namespace Job

variable (j : Job)

/-- Where a job stands that has had so many turns, if nobody has stopped it. -/
def phaseAfter (turns : Nat) : JobPhase :=
  if turns < j.steps then .reporting (j.steps - turns - 1)
  else if turns = j.steps then .storing
  else if turns = j.steps + 1 then .completing
  else .ended

/-- The job has done all that it could do in its turns. -/
structure OnTrack (times : List Timestamp) (done : List TaskEvent) (st : Stage) : Prop where
  phase : st.phase = j.phaseAfter times.length
  done : done = atTimes j.script times

/-- The task cannot be moved any more, and the job has nothing to report or to store. -/
structure Stopped (times : List Timestamp) (done : List TaskEvent) (st : Stage) : Prop where
  phase : st.phase = .completing ∨ st.phase = .ended
  dead : ¬ st.store.Live j.task
  done : done <+: atTimes j.script times

/-! ### The script -/

theorem length_reports : j.reports.length = j.steps := by
  simp [reports]

theorem report_eq {m : Nat} (hm : m < j.steps) :
    report { j with remaining := j.steps - m - 1 + 1 } = s!"step {m + 1} of {j.steps}" := by
  have hstep : j.steps - (j.steps - m - 1 + 1) + 1 = m + 1 := by omega
  simp only [report, hstep]

theorem script_of_lt {m : Nat} (hm : m < j.steps) :
    j.script[m]? = some fun now =>
      .moved j.task now .working (some s!"step {m + 1} of {j.steps}") := by
  rw [script, List.getElem?_append_left (by rwa [length_reports])]
  simp [reports, hm]

theorem script_steps : j.script[j.steps]? = some fun _ => .stored j.task j.result := by
  rw [script, List.getElem?_append_right (by rw [length_reports]), length_reports, Nat.sub_self]
  rfl

theorem script_steps_succ :
    j.script[j.steps + 1]? = some fun now => .moved j.task now .completed (some "done") := by
  rw [script, List.getElem?_append_right (by rw [length_reports]; omega), length_reports,
    Nat.add_sub_cancel_left]
  rfl

theorem script_of_ge {m : Nat} (hm : j.steps + 2 ≤ m) : j.script[m]? = none := by
  simp [script, length_reports, hm]

theorem phaseAfter_of_lt {m : Nat} (hm : m < j.steps) :
    j.phaseAfter m = .reporting (j.steps - m - 1) :=
  if_pos hm

theorem phaseAfter_steps : j.phaseAfter j.steps = .storing := by
  simp [phaseAfter]

theorem phaseAfter_steps_succ : j.phaseAfter (j.steps + 1) = .completing := by
  simp [phaseAfter]

theorem phaseAfter_of_ge {m : Nat} (hm : j.steps + 2 ≤ m) : j.phaseAfter m = .ended := by
  simp only [phaseAfter]
  rw [if_neg (by omega), if_neg (by omega), if_neg (by omega)]

/-- Which turn is the next one: a report, the result, the end, or none. -/
theorem turns_cases (m : Nat) :
    m < j.steps ∨ m = j.steps ∨ m = j.steps + 1 ∨ j.steps + 2 ≤ m := by
  omega

theorem reported_eq {m : Nat} (hm : m < j.steps) :
    reported (j.steps - m - 1) = j.phaseAfter (m + 1) := by
  rcases Nat.lt_or_ge (m + 1) j.steps with hlt | hge
  · rw [j.phaseAfter_of_lt hlt, show j.steps - m - 1 = j.steps - (m + 1) - 1 + 1 by omega, reported]
  · have hlast : m + 1 = j.steps := by omega
    rw [hlast, phaseAfter_steps, show j.steps - m - 1 = 0 by omega, reported]

/-! ### One turn of the job -/

variable {j} {s : TaskStore} (now : Timestamp)

theorem turn_reporting_of_live {m : Nat} (hm : m < j.steps) (hlive : s.Live j.task) :
    j.turn ⟨j.phaseAfter m, s⟩ (.job now) = ⟨j.phaseAfter (m + 1),
        s.moveTask now j.task .working (some s!"step {m + 1} of {j.steps}")⟩ ∧
      j.ownEvents ⟨j.phaseAfter m, s⟩ (.job now) =
        [.moved j.task now .working (some s!"step {m + 1} of {j.steps}")] := by
  rw [j.phaseAfter_of_lt hm, ← j.reported_eq hm, ← j.report_eq hm]
  constructor
  · simp only [turn, TaskStore.update_of_live hlive]
  · exact TaskUse.events_update_of_live hlive _ _ _

/-- A report of a task that is not live is the end of the job, and changes nothing. -/
theorem turn_reporting_of_not_live (more : Nat) (hdead : ¬ s.Live j.task) :
    j.turn ⟨.reporting more, s⟩ (.job now) = ⟨.ended, s⟩ ∧
      j.ownEvents ⟨.reporting more, s⟩ (.job now) = [] := by
  constructor
  · simp only [turn, TaskStore.update_of_not_live hdead]
  · exact TaskUse.events_update_of_not_live hdead _ _ _

theorem turn_completing_of_live (hlive : s.Live j.task) :
    j.turn ⟨.completing, s⟩ (.job now) =
        ⟨.ended, s.moveTask now j.task .completed (some "done")⟩ ∧
      j.ownEvents ⟨.completing, s⟩ (.job now) =
        [.moved j.task now .completed (some "done")] := by
  constructor
  · simp only [turn, TaskStore.update_of_live hlive]
  · exact TaskUse.events_update_of_live hlive _ _ _

theorem turn_completing_of_not_live (hdead : ¬ s.Live j.task) :
    j.turn ⟨.completing, s⟩ (.job now) = ⟨.ended, s⟩ ∧
      j.ownEvents ⟨.completing, s⟩ (.job now) = [] := by
  constructor
  · simp only [turn, TaskStore.update_of_not_live hdead]
  · exact TaskUse.events_update_of_not_live hdead _ _ _

theorem ownEvents_storing :
    j.ownEvents ⟨.storing, s⟩ (.job now) =
      if s.contains j.task then [.stored j.task j.result] else [] := by
  show (if (s.setResult j.task j.result).1 then _ else _) = _
  rw [TaskStore.setResult_fst]

/-! ### On track, or stopped -/

variable {times : List Timestamp} {done : List TaskEvent} {st : Stage}

theorem prefix_atTimes_concat (j : Job) (times : List Timestamp) (now : Timestamp) :
    atTimes j.script times <+: atTimes j.script (times ++ [now]) :=
  ⟨_, (atTimes_concat _ _ _).symm⟩

/-- The result is stored whether the task is live or not, if it is there. -/
theorem OnTrack.turn_storing (h : j.OnTrack times done st) (hm : times.length = j.steps)
    (hthere : st.store.contains j.task = true) :
    j.OnTrack (times ++ [now]) (done ++ j.ownEvents st (.job now)) (j.turn st (.job now)) := by
  obtain ⟨phase, s⟩ := st
  obtain ⟨hphase, rfl⟩ := h
  obtain rfl : phase = .storing := hphase.trans (hm ▸ j.phaseAfter_steps)
  rw [ownEvents_storing, if_pos hthere]
  refine ⟨?_, ?_⟩
  · simp [turn, hm, phaseAfter_steps_succ]
  · simp [atTimes_concat, hm, script_steps]

/-- As long as the task is live, the job goes on. -/
theorem OnTrack.turn_of_live (h : j.OnTrack times done st)
    (hlive : times.length < j.steps + 2 → st.store.Live j.task) :
    j.OnTrack (times ++ [now]) (done ++ j.ownEvents st (.job now)) (j.turn st (.job now)) := by
  rcases j.turns_cases times.length with hm | hm | hm | hm
  · obtain ⟨phase, s⟩ := st
    obtain ⟨hphase, rfl⟩ := h
    obtain rfl : phase = j.phaseAfter times.length := hphase
    obtain ⟨hturn, hown⟩ := turn_reporting_of_live now hm (hlive (by omega))
    rw [hturn, hown]
    exact ⟨by simp, by simp [atTimes_concat, j.script_of_lt hm]⟩
  · refine h.turn_storing now hm ?_
    obtain ⟨t, hget, -⟩ := hlive (by omega)
    simp [TaskStore.contains, hget]
  · obtain ⟨phase, s⟩ := st
    obtain ⟨hphase, rfl⟩ := h
    obtain rfl : phase = .completing := hphase.trans (hm ▸ j.phaseAfter_steps_succ)
    obtain ⟨hturn, hown⟩ := turn_completing_of_live now (hlive (by omega))
    rw [hturn, hown]
    refine ⟨?_, ?_⟩
    · simp [hm, j.phaseAfter_of_ge (Nat.le_refl _)]
    · simp [atTimes_concat, hm, script_steps_succ]
  · obtain ⟨phase, s⟩ := st
    obtain ⟨hphase, rfl⟩ := h
    obtain rfl : phase = .ended := hphase.trans (j.phaseAfter_of_ge hm)
    refine ⟨?_, ?_⟩
    · simp [turn, j.phaseAfter_of_ge (Nat.le_succ_of_le hm)]
    · simp [atTimes_concat, j.script_of_ge hm, ownEvents, use?]

/-- Where the task is not live, a turn stops the job, unless the result is stored in it. -/
theorem OnTrack.turn_of_not_live (h : j.OnTrack times done st) (hm : times.length < j.steps + 2)
    (hdead : ¬ st.store.Live j.task) :
    j.OnTrack (times ++ [now]) (done ++ j.ownEvents st (.job now)) (j.turn st (.job now)) ∨
      j.Stopped (times ++ [now]) (done ++ j.ownEvents st (.job now)) (j.turn st (.job now)) := by
  have hprefix := j.prefix_atTimes_concat times now
  rcases j.turns_cases times.length with hm | hm | hm | hm
  · obtain ⟨phase, s⟩ := st
    obtain ⟨hphase, rfl⟩ := h
    obtain rfl : phase = _ := hphase.trans (j.phaseAfter_of_lt hm)
    obtain ⟨hturn, hown⟩ := turn_reporting_of_not_live now (j.steps - times.length - 1) hdead
    rw [hturn, hown, List.append_nil]
    exact .inr ⟨.inr rfl, hdead, hprefix⟩
  · cases hthere : st.store.contains j.task with
    | true => exact .inl (h.turn_storing now hm hthere)
    | false =>
      obtain ⟨phase, s⟩ := st
      obtain ⟨hphase, rfl⟩ := h
      obtain rfl : phase = .storing := hphase.trans (hm ▸ j.phaseAfter_steps)
      have hturn : j.turn ⟨.storing, s⟩ (.job now) = ⟨.completing, s⟩ := by
        simp only [turn, TaskStore.setResult_of_not_contains j.result hthere]
      rw [hturn, ownEvents_storing, if_neg (by simp [hthere]), List.append_nil]
      exact .inr ⟨.inl rfl, hdead, hprefix⟩
  · obtain ⟨phase, s⟩ := st
    obtain ⟨hphase, rfl⟩ := h
    obtain rfl : phase = .completing := hphase.trans (hm ▸ j.phaseAfter_steps_succ)
    obtain ⟨hturn, hown⟩ := turn_completing_of_not_live now hdead
    rw [hturn, hown, List.append_nil]
    exact .inr ⟨.inr rfl, hdead, hprefix⟩
  · omega

theorem OnTrack.turn_job (h : j.OnTrack times done st) :
    j.OnTrack (times ++ [now]) (done ++ j.ownEvents st (.job now)) (j.turn st (.job now)) ∨
      j.Stopped (times ++ [now]) (done ++ j.ownEvents st (.job now)) (j.turn st (.job now)) := by
  by_cases hlive : times.length < j.steps + 2 → st.store.Live j.task
  · exact .inl (h.turn_of_live now hlive)
  · obtain ⟨hm, hdead⟩ := Classical.not_imp.1 hlive
    exact h.turn_of_not_live now hm hdead

theorem Stopped.turn_job (h : j.Stopped times done st) :
    j.Stopped (times ++ [now]) (done ++ j.ownEvents st (.job now)) (j.turn st (.job now)) := by
  obtain ⟨phase, s⟩ := st
  have hprefix : done <+: atTimes j.script (times ++ [now]) :=
    h.done.trans (j.prefix_atTimes_concat times now)
  rcases h.phase with hphase | hphase
  · obtain rfl : phase = .completing := hphase
    obtain ⟨hturn, hown⟩ := turn_completing_of_not_live now h.dead
    rw [hturn, hown, List.append_nil]
    exact ⟨.inr rfl, h.dead, hprefix⟩
  · obtain rfl : phase = .ended := hphase
    exact ⟨.inr rfl, h.dead, by simpa [ownEvents, use?] using hprefix⟩

/-! ### Turns one after the other -/

/-- The job creates no tasks. -/
theorem not_created_mem_ownEvents (j : Job) (st : Stage) (t : Turn) (task : Task) :
    .created task ∉ j.ownEvents st t := by
  obtain ⟨phase, s⟩ := st
  have hupdate : ∀ now status message,
      .created task ∉ (TaskUse.update now j.task status message).events s := by
    intro now status message
    by_cases hlive : s.Live j.task
    · simp [TaskUse.events_update_of_live hlive]
    · simp [TaskUse.events_update_of_not_live hlive]
  cases t with
  | other use => simp [ownEvents]
  | job now =>
    cases phase with
    | reporting more => exact hupdate now _ _
    | storing =>
      rw [ownEvents_storing]
      split <;> simp
    | completing => exact hupdate now _ _
    | ended => simp [ownEvents, use?]

theorem times_concat_job (turns : List Turn) (now : Timestamp) :
    Turn.times (turns ++ [.job now]) = Turn.times turns ++ [now] := by
  simp [Turn.times, Turn.time?]

theorem times_concat_other (turns : List Turn) (use : TaskUse) :
    Turn.times (turns ++ [.other use]) = Turn.times turns := by
  simp [Turn.times, Turn.time?]

/-- No task is created under the identifier of the job's task. -/
def Fresh (j : Job) (st : Stage) (turns : List Turn) : Prop :=
  ∀ task, .created task ∈ j.foreign st turns → task.id ≠ j.task

theorem fresh_concat {turns : List Turn} {t : Turn} :
    j.Fresh st (turns ++ [t]) ↔ j.Fresh st turns ∧
      ∀ task, .created task ∈ foreignEvents (j.play st turns) t → task.id ≠ j.task := by
  simp only [Fresh, foreign, trace_concat, List.mem_append]
  exact ⟨fun h => ⟨fun task hmem => h task (.inl hmem), fun task hmem => h task (.inr hmem)⟩,
    fun h task hmem => hmem.elim (h.1 task) (h.2 task)⟩

theorem not_live_turn {t : Turn} (hdead : ¬ st.store.Live j.task)
    (hfresh : ∀ task, .created task ∈ foreignEvents st t → task.id ≠ j.task) :
    ¬ (j.turn st t).store.Live j.task := by
  cases t with
  | other use => exact TaskUse.not_live_apply hdead hfresh
  | job now =>
    have hown := not_created_mem_ownEvents j st (.job now)
    rw [store_turn_job]
    cases huse : j.use? now st.phase with
    | none => exact hdead
    | some use =>
      simp only [ownEvents, huse, Option.elim_some] at hown
      exact TaskUse.not_live_apply hdead fun task hmem => absurd hmem (hown task)

/-- **A task that is not live is not brought back**, by the job as little as by others. -/
theorem not_live_play {turns : List Turn} (hfresh : j.Fresh st turns)
    (hdead : ¬ st.store.Live j.task) : ¬ (j.play st turns).store.Live j.task := by
  induction turns using List.reverseRecOn with
  | nil => exact hdead
  | append_singleton turns t ih =>
    obtain ⟨hturns, ht⟩ := fresh_concat.1 hfresh
    rw [play_concat]
    exact not_live_turn (ih hturns) ht

theorem Fresh.right {before after : List Turn} (h : j.Fresh st (before ++ after)) :
    j.Fresh (j.play st before) after := by
  intro task hmem
  refine h task ?_
  rw [foreign, trace_append]
  exact List.mem_append_right _ hmem

/-- **A report of a task that is not live is the end**: from then on, only others do anything. -/
theorem stops_at_report {before : List Turn} {more : Nat}
    (hphase : (j.play st before).phase = .reporting more)
    (hdead : ¬ (j.play st before).store.Live j.task) (now : Timestamp) (after : List Turn) :
    j.play st (before ++ [.job now]) = ⟨.ended, (j.play st before).store⟩ ∧
      j.play st (before ++ .job now :: after) =
        ⟨.ended, Turn.others (j.play st before).store after⟩ ∧
      j.own st (before ++ .job now :: after) = j.own st before := by
  rcases hst : j.play st before with ⟨phase, s⟩
  rw [hst] at hphase hdead
  obtain rfl : phase = .reporting more := hphase
  obtain ⟨hturn, hown⟩ := turn_reporting_of_not_live now more hdead
  refine ⟨?_, ?_, ?_⟩
  · rw [play_concat, hst, hturn]
  · rw [play_append, hst, play, List.foldl_cons, hturn]
    exact j.play_of_ended s after
  · have hafter : j.trace j.ownEvents ⟨.ended, s⟩ after = [] := j.own_of_ended s after
    rw [own, trace_append, hst, trace, hturn, hown, hafter, List.append_nil, List.append_nil, own]

/-- **A job is on its way or stopped**, whatever others do. -/
theorem onTrack_or_stopped {turns : List Turn} (hstart : st.phase = j.phaseAfter 0)
    (hfresh : j.Fresh st turns) :
    j.OnTrack (Turn.times turns) (j.own st turns) (j.play st turns) ∨
      j.Stopped (Turn.times turns) (j.own st turns) (j.play st turns) := by
  induction turns using List.reverseRecOn with
  | nil => exact .inl ⟨hstart, by simp [own, trace, atTimes, Turn.times]⟩
  | append_singleton turns t ih =>
    obtain ⟨hturns, ht⟩ := fresh_concat.1 hfresh
    rw [play_concat, own, trace_concat, ← own]
    cases t with
    | job now =>
      rw [times_concat_job]
      rcases ih hturns with hon | hstopped
      · exact hon.turn_job now
      · exact .inr (hstopped.turn_job now)
    | other use =>
      rw [times_concat_other]
      rcases ih hturns with hon | hstopped
      · exact .inl ⟨hon.phase, by simpa [ownEvents] using hon.done⟩
      · exact .inr ⟨hstopped.phase, TaskUse.not_live_apply hstopped.dead ht,
          by simpa [ownEvents] using hstopped.done⟩

/-! ### A job that nobody disturbs -/

/-- The job is on its way, and the task is what it has made of it so far. -/
structure Undisturbed (j : Job) (t₀ : Task) (times : List Timestamp) (done : List TaskEvent)
    (st : Stage) : Prop where
  onTrack : j.OnTrack times done st
  there : ∃ t, st.store.get? j.task = some t ∧
    (∀ now status message, t.moved now status message = t₀.moved now status message) ∧
    (times.length < j.steps + 2 → t.status.isFinal = false) ∧
    ∀ last, times[j.steps + 1]? = some last → t = t₀.moved last .completed (some "done")
  result : j.steps < times.length → st.store.result? j.task = some j.result

variable {t₀ : Task}

theorem Undisturbed.turn_other {use : TaskUse} (h : j.Undisturbed t₀ times done st)
    (huse : ∀ e ∈ use.events st.store, e.subject ≠ j.task) :
    j.Undisturbed t₀ times done (j.turn st (.other use)) := by
  obtain ⟨t, hget, hmoves, hlive, hend⟩ := h.there
  refine ⟨⟨h.onTrack.phase, h.onTrack.done⟩, ⟨t, ?_, hmoves, hlive, hend⟩, fun hm => ?_⟩
  · exact (TaskUse.get?_apply_of_subject_ne huse).trans hget
  · have hthere : st.store.contains j.task = true := by simp [TaskStore.contains, hget]
    exact (TaskUse.result?_apply_of_subject_ne hthere huse).trans (h.result hm)

theorem getElem?_concat_ne_some {m : Nat} (hm : times.length < m) (now last : Timestamp) :
    (times ++ [now])[m]? ≠ some last := by
  intro hlast
  obtain ⟨hlt, -⟩ := List.getElem?_eq_some_iff.1 hlast
  rw [List.length_append, List.length_singleton] at hlt
  omega

theorem Undisturbed.turn_report (h : j.Undisturbed t₀ times done st) (hm : times.length < j.steps) :
    j.Undisturbed t₀ (times ++ [now]) (done ++ j.ownEvents st (.job now))
      (j.turn st (.job now)) := by
  obtain ⟨phase, s⟩ := st
  obtain rfl : phase = j.phaseAfter times.length := h.onTrack.phase
  obtain ⟨t, hget, hmoves, hlive, -⟩ := h.there
  have hthere : s.Live j.task := ⟨t, hget, hlive (by omega)⟩
  obtain ⟨hturn, -⟩ := turn_reporting_of_live now hm hthere
  refine ⟨h.onTrack.turn_of_live now fun _ => hthere,
    ⟨t.moved now .working (some s!"step {times.length + 1} of {j.steps}"), ?_, hmoves,
      fun _ => rfl, ?_⟩, ?_⟩
  · rw [hturn, TaskStore.get?_moveTask, if_pos rfl, hget, Option.map_some]
  · exact fun last hlast => absurd hlast (getElem?_concat_ne_some (by omega) now last)
  · simp only [List.length_append, List.length_singleton]
    omega

theorem Undisturbed.turn_store (h : j.Undisturbed t₀ times done st) (hm : times.length = j.steps) :
    j.Undisturbed t₀ (times ++ [now]) (done ++ j.ownEvents st (.job now))
      (j.turn st (.job now)) := by
  obtain ⟨phase, s⟩ := st
  obtain rfl : phase = .storing := h.onTrack.phase.trans (hm ▸ j.phaseAfter_steps)
  obtain ⟨t, hget, hmoves, hlive, -⟩ := h.there
  have hthere : s.contains j.task = true := Option.isSome_of_eq_some hget
  refine ⟨h.onTrack.turn_storing now hm hthere,
    ⟨t, ?_, hmoves, fun _ => hlive (by omega), ?_⟩, fun _ => ?_⟩
  · exact (s.get?_setResult j.task j.task j.result).trans hget
  · exact fun last hlast => absurd hlast (getElem?_concat_ne_some (by omega) now last)
  · exact (s.result?_setResult _ _ hthere).trans (if_pos rfl)

theorem Undisturbed.turn_complete (h : j.Undisturbed t₀ times done st)
    (hm : times.length = j.steps + 1) :
    j.Undisturbed t₀ (times ++ [now]) (done ++ j.ownEvents st (.job now))
      (j.turn st (.job now)) := by
  obtain ⟨phase, s⟩ := st
  obtain rfl : phase = .completing := h.onTrack.phase.trans (hm ▸ j.phaseAfter_steps_succ)
  obtain ⟨t, hget, hmoves, hlive, -⟩ := h.there
  have hthere : s.Live j.task := ⟨t, hget, hlive (by omega)⟩
  obtain ⟨hturn, -⟩ := turn_completing_of_live now hthere
  refine ⟨h.onTrack.turn_of_live now fun _ => hthere,
    ⟨t.moved now .completed (some "done"), ?_, hmoves, ?_, fun last hlast => ?_⟩, fun _ => ?_⟩
  · rw [hturn, TaskStore.get?_moveTask, if_pos rfl, hget, Option.map_some]
  · simp only [List.length_append, List.length_singleton]
    omega
  · obtain rfl : now = last := by simpa [← hm] using hlast
    exact hmoves _ _ _
  · rw [hturn]
    exact h.result (by omega)

/-- After its last turn, the job leaves everything as it is. -/
theorem Undisturbed.turn_ended (h : j.Undisturbed t₀ times done st)
    (hm : j.steps + 2 ≤ times.length) :
    j.Undisturbed t₀ (times ++ [now]) (done ++ j.ownEvents st (.job now))
      (j.turn st (.job now)) := by
  obtain ⟨phase, s⟩ := st
  obtain rfl : phase = .ended := h.onTrack.phase.trans (j.phaseAfter_of_ge hm)
  obtain ⟨t, hget, hmoves, -, hend⟩ := h.there
  refine ⟨h.onTrack.turn_of_live now fun hlt => by omega,
    ⟨t, hget, hmoves, ?_, fun last hlast => hend last ?_⟩, fun _ => h.result (by omega)⟩
  · simp only [List.length_append, List.length_singleton]
    omega
  · rwa [List.getElem?_append_left (by omega)] at hlast

theorem Undisturbed.turn_job (h : j.Undisturbed t₀ times done st) :
    j.Undisturbed t₀ (times ++ [now]) (done ++ j.ownEvents st (.job now))
      (j.turn st (.job now)) := by
  rcases j.turns_cases times.length with hm | hm | hm | hm
  · exact h.turn_report now hm
  · exact h.turn_store now hm
  · exact h.turn_complete now hm
  · exact h.turn_ended now hm

theorem undisturbed_play {turns : List Turn} (hstart : j.Undisturbed t₀ [] [] st)
    (hnobody : ∀ e ∈ j.foreign st turns, e.subject ≠ j.task) :
    j.Undisturbed t₀ (Turn.times turns) (j.own st turns) (j.play st turns) := by
  induction turns using List.reverseRecOn with
  | nil => exact hstart
  | append_singleton turns t ih =>
    rw [foreign, trace_concat, ← foreign] at hnobody
    obtain ⟨hturns, ht⟩ := List.forall_mem_append.1 hnobody
    rw [play_concat, own, trace_concat, ← own]
    cases t with
    | job now =>
      rw [times_concat_job]
      exact (ih hturns).turn_job now
    | other use =>
      rw [times_concat_other, ownEvents, List.append_nil]
      exact (ih hturns).turn_other ht

/-! ### The result comes after the reports -/

theorem stored_not_mem_reports (j : Job) (times : List Timestamp) (v : Json) :
    .stored j.task v ∉ atTimes j.reports times := by
  intro he
  obtain ⟨deed, hdeed, now, heq⟩ := exists_of_mem_atTimes he
  obtain ⟨i, -, rfl⟩ := List.mem_map.1 hdeed
  cases heq

/-- Behind the reports, the result is the first that there is. -/
theorem eq_cons_of_stored_mem {late : List Timestamp} {v : Json}
    (hdone : done <+: atTimes [fun _ => .stored j.task j.result,
      fun now => .moved j.task now .completed (some "done")] late)
    (hmem : .stored j.task v ∈ done) :
    late ≠ [] ∧ v = j.result ∧ ∃ rest, done = .stored j.task j.result :: rest := by
  cases late with
  | nil =>
    obtain rfl : done = [] := List.prefix_nil.1 hdone
    cases hmem
  | cons time late =>
    cases done with
    | nil => cases hmem
    | cons e rest =>
      obtain ⟨rfl, hend⟩ := List.cons_prefix_cons.1 hdone
      refine ⟨List.cons_ne_nil _ _, ?_, rest, rfl⟩
      rcases List.mem_cons.1 hmem with heq | hlater
      · exact (TaskEvent.stored.inj heq).2
      · obtain ⟨deed, hdeed, now, heq⟩ := exists_of_mem_atTimes (hend.subset hlater)
        obtain rfl := List.mem_singleton.1 hdeed
        cases heq

/-- A job that has stored a result has reported all steps before. -/
theorem reports_of_stored_mem {v : Json} (hdone : done <+: atTimes j.script times)
    (hmem : .stored j.task v ∈ done) :
    v = j.result ∧ (atTimes j.reports times).length = j.steps ∧
      ∃ rest, done = atTimes j.reports times ++ .stored j.task j.result :: rest := by
  rw [script, atTimes_append, length_reports] at hdone
  rcases List.prefix_or_prefix_of_prefix hdone (List.prefix_append _ _) with hbefore | ⟨behind, rfl⟩
  · exact absurd (hbefore.subset hmem) (j.stored_not_mem_reports times v)
  · have hbehind := (List.prefix_append_right_inj _).1 hdone
    have hlate := (List.mem_append.1 hmem).resolve_left (j.stored_not_mem_reports times v)
    obtain ⟨hne, rfl, rest, rfl⟩ := eq_cons_of_stored_mem hbehind hlate
    have hlength : j.steps < times.length :=
      Nat.lt_of_not_le fun hle => hne (List.drop_eq_nil_of_le hle)
    refine ⟨rfl, ?_, rest, rfl⟩
    simp [atTimes, length_reports, Nat.min_eq_left (Nat.le_of_lt hlength)]

end Job

/-! ### Jobs that the service starts -/

namespace Service

/-- The job that is started next. -/
def nextJob (sv : Service) (spec : JobSpec) : Job :=
  .ofSpec sv.tasks.mint.1 spec

/-- Where a job stands that has been started, and the store with its task. -/
def started (sv : Service) (now : Timestamp) (spec : JobSpec) : Stage :=
  ⟨(sv.nextJob spec).phase, (sv.startJob now spec).2.tasks⟩

variable (sv : Service) (now : Timestamp) (spec : JobSpec)

theorem phase_nextJob : (sv.nextJob spec).phase = (sv.nextJob spec).phaseAfter 0 := by
  rcases spec with ⟨_ | more, stepMillis, ttl⟩
  · rfl
  · let job := sv.nextJob ⟨more + 1, stepMillis, ttl⟩
    exact (job.phaseAfter_of_lt (Nat.succ_pos more)).symm

theorem undisturbed_started :
    (sv.nextJob spec).Undisturbed (sv.tasks.newTask now spec.ttl (some (.ofMillis spec.stepMillis)))
      [] [] (sv.started now spec) where
  onTrack := ⟨sv.phase_nextJob spec, by simp [atTimes]⟩
  there := ⟨_, sv.tasks.get?_create_self now spec.ttl _, fun _ _ _ => rfl, fun _ => rfl, by simp⟩
  result h := by simp at h

/-- **A job does not bring its task back.** Whatever others do to the store between its turns, as
long as they create no task under the identifier of the job's task:

If the task is not live when a step is to be reported, because somebody has ended it or removed it,
then the job is over, with the store as it was, and all that happens from then on is what the others
do. A task that is not live at some time is not live at any later time. What the job has done is
what its script says for the turns that it has had, up to where it was stopped; in particular a
result is stored only behind the reports of all steps. And if nothing that others do is about the
task, then the job does all that its script says: after its last turn the task is completed, with
its result.

A job that the service runs takes as many turns as it has by then, with nobody between them: one for
each step that is due, and two more when these are all of its steps. -/
theorem started_job_never_revives (sv : Service) (now : Timestamp) (spec : JobSpec)
    (turns : List Turn) (hfresh : (sv.nextJob spec).Fresh (sv.started now spec) turns) :
    let j := sv.nextJob spec
    let st := sv.started now spec
    (sv.startJob now spec).2.jobs = sv.jobs ++ [j] ∧
    (∀ before now' after more, turns = before ++ .job now' :: after →
      (j.play st before).phase = .reporting more → ¬ (j.play st before).store.Live j.task →
      j.play st (before ++ [.job now']) = ⟨.ended, (j.play st before).store⟩ ∧
        j.play st turns = ⟨.ended, Turn.others (j.play st before).store after⟩ ∧
        j.own st turns = j.own st before) ∧
    (∀ before after, turns = before ++ after → ¬ (j.play st before).store.Live j.task →
      ¬ (j.play st turns).store.Live j.task) ∧
    j.own st turns <+: atTimes j.script (Turn.times turns) ∧
    (∀ v, .stored j.task v ∈ j.own st turns →
      v = j.result ∧ (atTimes j.reports (Turn.times turns)).length = spec.steps ∧
        ∃ rest, j.own st turns =
          atTimes j.reports (Turn.times turns) ++ .stored j.task j.result :: rest) ∧
    ((∀ e ∈ j.foreign st turns, e.subject ≠ j.task) →
      j.own st turns = atTimes j.script (Turn.times turns) ∧
        (j.play st turns).phase = j.phaseAfter (Turn.times turns).length ∧
        ∀ last, (Turn.times turns)[spec.steps + 1]? = some last →
          (j.play st turns).store.get? j.task =
              some ((sv.tasks.newTask now spec.ttl (some (.ofMillis spec.stepMillis))).moved last
                .completed (some "done")) ∧
            (j.play st turns).store.result? j.task = some (.object [("steps", .int spec.steps)])) ∧
    ∀ j' : Job, j'.task = j.task → j'.steps = j.steps → j'.Ready → ∀ now' clock limit s,
      Job.stage (j'.run now' clock limit s) =
        j.play ⟨j'.phase, s⟩ (List.replicate (j'.dueTurns clock limit) (.job now')) := by
  intro j st
  have hplay := Job.onTrack_or_stopped (sv.phase_nextJob spec) hfresh
  have hprefix : j.own st turns <+: atTimes j.script (Turn.times turns) := by
    rcases hplay with hon | hstopped
    · exact hon.done ▸ List.prefix_rfl
    · exact hstopped.done
  refine ⟨rfl, ?_, ?_, hprefix, fun v hmem => Job.reports_of_stored_mem hprefix hmem, ?_, ?_⟩
  · rintro before now' after more rfl hphase hdead
    exact Job.stops_at_report hphase hdead now' after
  · rintro before after rfl hdead
    rw [Job.play_append]
    exact Job.not_live_play hfresh.right hdead
  · intro hnobody
    have hundisturbed := Job.undisturbed_play (sv.undisturbed_started now spec) hnobody
    obtain ⟨t, hget, -, -, hend⟩ := hundisturbed.there
    refine ⟨hundisturbed.onTrack.done, hundisturbed.onTrack.phase, fun last hlast => ?_⟩
    obtain ⟨hlt, -⟩ := List.getElem?_eq_some_iff.1 hlast
    exact ⟨hend last hlast ▸ hget, hundisturbed.result (Nat.lt_of_succ_lt hlt)⟩
  · intro j' htask hsteps hready now' clock limit s
    exact (Job.stage_run hready now' clock limit s).trans (Job.takeTurns_congr htask hsteps _ _)

/-- A job of two steps is cancelled before the second one, and deleted after it. -/
theorem started_job_never_revives_cancelled :
    let sv : Service := { tasks := .empty { idStrategy := .sequential "t" } fun _ => [] }
    let spec : JobSpec := ⟨2, 10, none⟩
    let j := sv.nextJob spec
    let st := sv.started ⟨0, 0⟩ spec
    let before : List Turn := [.job ⟨1, 0⟩, .other (.cancelTask ⟨2, 0⟩ "t1")]
    let after : List Turn := [.other (.delete "t1"), .job ⟨4, 0⟩]
    let turns := before ++ .job ⟨3, 0⟩ :: after
    j.Fresh st turns ∧ (j.play st before).phase = .reporting 0 ∧
      ¬ (j.play st before).store.Live j.task ∧
      j.own st turns = j.own st before ∧ (j.play st turns).phase = .ended ∧
      ¬ (j.play st turns).store.Live j.task := by
  intro sv spec j st before after turns
  have hforeign : j.foreign st turns = [.moved "t1" ⟨2, 0⟩ .cancelled none, .removed "t1"] := by
    simp only [turns, before, after, st, j, spec, sv]
    rfl
  have hphase : (j.play st before).phase = .reporting 0 := by
    simp only [before, st, j, spec, sv]
    rfl
  have hfinal : ((j.play st before).store.get? j.task).map Task.status = some .cancelled := by
    simp only [before, st, j, spec, sv]
    rfl
  have hcancelled : ¬ (j.play st before).store.Live j.task := by
    rintro ⟨t, hget, hlive⟩
    have hstatus : t.status = .cancelled := by simpa [hget] using hfinal
    rw [hstatus] at hlive
    cases hlive
  have hfresh : j.Fresh st turns := by
    intro task hmem
    simp [hforeign] at hmem
  obtain ⟨-, hstops, hdead, -⟩ := sv.started_job_never_revives ⟨0, 0⟩ spec turns hfresh
  obtain ⟨-, hended, hown⟩ := hstops before ⟨3, 0⟩ after 0 rfl hphase hcancelled
  exact ⟨hfresh, hphase, hcancelled, hown, congrArg Stage.phase hended,
    hdead before _ rfl hcancelled⟩

end Service
end Switchboard
