import Mathlib.Data.List.Induction
import Switchboard.Proofs.Task.Frames
import Switchboard.Service.Basic

/-!
# A job between other uses of its store

A job uses the store of the tasks one operation at a time, and between any two of them others may do
what they like. `JobPhase` is where the job stands, a `Turn` is one operation of the job or one use
by somebody else, and `Job.play` is what turns make of both, the job and the store.

`Job.own` and `Job.foreign` are what the job and the others have done, and `Job.script` is what the
job does if nobody stops it. A job that the service runs takes its turns immediately one after
another: one for each step that is due, and two more when it is done with its steps
(`Job.stage_run`).
-/

namespace Switchboard

/-- Where a job stands between two operations. -/
inductive JobPhase
  /-- The next step is to be reported, and then so many more. -/
  | reporting (more : Nat)
  | storing
  | completing
  | ended

/-- The phase of a job, and the store. -/
structure Stage where
  phase : JobPhase
  store : TaskStore

inductive Turn
  /-- Somebody else uses the store. -/
  | other (use : TaskUse)
  /-- The job does its next operation. -/
  | job (now : Timestamp)

namespace Turn

def use? : Turn → Option TaskUse
  | other use => some use
  | job _ => none

def time? : Turn → Option Timestamp
  | other _ => none
  | job now => some now

/-- When the turns of the job are. -/
def times (turns : List Turn) : List Timestamp :=
  turns.filterMap time?

theorem times_append (turns turns' : List Turn) :
    times (turns ++ turns') = times turns ++ times turns' :=
  List.filterMap_append

theorem times_replicate (k : Nat) (now : Timestamp) :
    times (List.replicate k (.job now)) = List.replicate k now :=
  List.filterMap_replicate_of_some rfl

/-- The store after what the others do, as if there were no job. -/
def others (s : TaskStore) (turns : List Turn) : TaskStore :=
  (turns.filterMap use?).foldl TaskUse.apply s

end Turn

namespace Job

/-! ### Turns -/

/-- The phase after a step has been reported. -/
def reported : (more : Nat) → JobPhase
  | 0 => .storing
  | more + 1 => .reporting more

/-- What a turn makes of the phase and the store. -/
def turn (j : Job) (st : Stage) : Turn → Stage
  | .other use => { st with store := use.apply st.store }
  | .job now =>
    match st.phase with
    | .reporting more =>
      match st.store.update now j.task .working (some { j with remaining := more + 1 }.report) with
      | (true, store) => ⟨reported more, store⟩
      | (false, store) => ⟨.ended, store⟩
    | .storing => ⟨.completing, (st.store.setResult j.task j.result).2⟩
    | .completing => ⟨.ended, (st.store.update now j.task .completed (some "done")).2⟩
    | .ended => st

/-- The phase and the store after turns, one after the other. -/
def play (j : Job) (st : Stage) (turns : List Turn) : Stage :=
  turns.foldl j.turn st

/-- The operation that a job does next. -/
def use? (j : Job) (now : Timestamp) : JobPhase → Option TaskUse
  | .reporting more =>
    some (.update now j.task .working (some { j with remaining := more + 1 }.report))
  | .storing => some (.setResult j.task j.result)
  | .completing => some (.update now j.task .completed (some "done"))
  | .ended => none

/-- What the job does in a turn. -/
def ownEvents (j : Job) (st : Stage) : Turn → List TaskEvent
  | .other _ => []
  | .job now => (j.use? now st.phase).elim [] fun use => use.events st.store

/-- What others do in a turn. -/
def foreignEvents (st : Stage) : Turn → List TaskEvent
  | .other use => use.events st.store
  | .job _ => []

/-- The events of turns, one turn after the other. -/
def trace (j : Job) (events : Stage → Turn → List TaskEvent) : Stage → List Turn → List TaskEvent
  | _, [] => []
  | st, t :: turns => events st t ++ j.trace events (j.turn st t) turns

/-- What the job has done in turns. -/
def own (j : Job) (st : Stage) (turns : List Turn) : List TaskEvent :=
  j.trace j.ownEvents st turns

/-- What others have done in turns. -/
def foreign (j : Job) (st : Stage) (turns : List Turn) : List TaskEvent :=
  j.trace foreignEvents st turns

variable (j : Job) (st : Stage)

theorem play_append (turns turns' : List Turn) :
    j.play st (turns ++ turns') = j.play (j.play st turns) turns' :=
  List.foldl_append

theorem play_concat (turns : List Turn) (t : Turn) :
    j.play st (turns ++ [t]) = j.turn (j.play st turns) t :=
  j.play_append st turns [t]

theorem trace_append (events : Stage → Turn → List TaskEvent) (turns turns' : List Turn) :
    j.trace events st (turns ++ turns') =
      j.trace events st turns ++ j.trace events (j.play st turns) turns' := by
  induction turns generalizing st with
  | nil => rfl
  | cons t turns ih =>
    rw [List.cons_append, trace, ih, trace, List.append_assoc]
    rfl

theorem trace_concat (events : Stage → Turn → List TaskEvent) (turns : List Turn) (t : Turn) :
    j.trace events st (turns ++ [t]) =
      j.trace events st turns ++ events (j.play st turns) t := by
  rw [trace_append, trace, trace, List.append_nil]

/-- An operation of the job is a use of the store. -/
theorem store_turn_job (now : Timestamp) :
    (j.turn st (.job now)).store =
      (j.use? now st.phase).elim st.store fun use => use.apply st.store := by
  obtain ⟨phase, s⟩ := st
  cases phase with
  | reporting more =>
    simp only [turn, use?, Option.elim_some, TaskUse.apply]
    split <;> simp_all
  | storing | completing | ended => rfl

/-! ### A job that is over -/

theorem play_of_ended (s : TaskStore) (turns : List Turn) :
    j.play ⟨.ended, s⟩ turns = ⟨.ended, Turn.others s turns⟩ := by
  induction turns generalizing s with
  | nil => rfl
  | cons t turns ih =>
    cases t with
    | other use => exact ih (use.apply s)
    | job now => exact ih s

theorem own_of_ended (s : TaskStore) (turns : List Turn) : j.own ⟨.ended, s⟩ turns = [] := by
  induction turns generalizing s with
  | nil => rfl
  | cons t turns ih =>
    cases t with
    | other use => exact ih (use.apply s)
    | job now => exact ih s

/-! ### What a job does if nobody stops it -/

/-- The reports of all steps. -/
def reports : List (Timestamp → TaskEvent) :=
  (List.range j.steps).map fun i now =>
    .moved j.task now .working (some s!"step {i + 1} of {j.steps}")

/-- All that a job does: the reports, then the result, then the end. -/
def script : List (Timestamp → TaskEvent) :=
  j.reports ++ [fun _ => .stored j.task j.result,
    fun now => .moved j.task now .completed (some "done")]

end Job

/-- What is done at certain times. -/
def atTimes (deeds : List (Timestamp → TaskEvent)) (times : List Timestamp) : List TaskEvent :=
  List.zipWith (fun deed now => deed now) deeds times

theorem atTimes_concat (deeds : List (Timestamp → TaskEvent)) (times : List Timestamp)
    (now : Timestamp) :
    atTimes deeds (times ++ [now]) =
      atTimes deeds times ++ (deeds[times.length]?.map fun deed => deed now).toList := by
  induction times generalizing deeds with
  | nil => cases deeds <;> simp [atTimes]
  | cons time times ih =>
    cases deeds with
    | nil => rfl
    | cons deed deeds => exact congrArg (deed time :: ·) (ih deeds)

theorem atTimes_append (deeds deeds' : List (Timestamp → TaskEvent)) (times : List Timestamp) :
    atTimes (deeds ++ deeds') times =
      atTimes deeds times ++ atTimes deeds' (times.drop deeds.length) := by
  induction deeds generalizing times with
  | nil => rfl
  | cons deed deeds ih =>
    cases times with
    | nil => simp [atTimes]
    | cons time times => exact congrArg (deed time :: ·) (ih times)

theorem exists_of_mem_atTimes {deeds : List (Timestamp → TaskEvent)} {times : List Timestamp}
    {e : TaskEvent} (he : e ∈ atTimes deeds times) : ∃ deed ∈ deeds, ∃ now, e = deed now := by
  induction deeds generalizing times with
  | nil => simp [atTimes] at he
  | cons deed deeds ih =>
    cases times with
    | nil => simp [atTimes] at he
    | cons time times =>
      rcases List.mem_cons.1 he with rfl | he
      · exact ⟨deed, List.mem_cons_self, time, rfl⟩
      · obtain ⟨deed', hmem, now, rfl⟩ := ih he
        exact ⟨deed', List.mem_cons_of_mem _ hmem, now, rfl⟩

namespace Job

variable (j : Job)

/-! ### Jobs that the service runs -/

/-- Where a job stands that the service runs. -/
def phase : JobPhase :=
  match j.remaining with
  | 0 => .storing
  | more + 1 => .reporting more

/-- What is left of a job, and the store. -/
def stage (r : Option Job × TaskStore) : Stage :=
  ⟨r.1.elim .ended phase, r.2⟩

/-- Turns depend on the task and on how many steps there are, and on nothing else of the job. -/
theorem turn_congr {j j' : Job} (htask : j'.task = j.task) (hsteps : j'.steps = j.steps) :
    j'.turn = j.turn := by
  obtain ⟨task, steps, stepMillis, remaining, due⟩ := j
  obtain ⟨task', steps', stepMillis', remaining', due'⟩ := j'
  obtain rfl : task' = task := htask
  obtain rfl : steps' = steps := hsteps
  rfl

/-- The job takes so many turns at an instant, with nobody between them. -/
def takeTurns (j : Job) (k : Nat) (now : Timestamp) (st : Stage) : Stage :=
  j.play st (List.replicate k (.job now))

/-- How many steps of a job are due by an instant. A job that has not begun begins at `clock`. -/
def dueSteps (j : Job) (clock limit : Nat) : Nat :=
  (List.range j.remaining).countP fun i =>
    j.due.getD (clock + j.stepMillis) + i * j.stepMillis ≤ limit

/-- How many turns a job has by an instant: one for each step that is due, and two more when these
are all of its steps. -/
def dueTurns (j : Job) (clock limit : Nat) : Nat :=
  if j.dueSteps clock limit = j.remaining then j.remaining + 2 else j.dueSteps clock limit

variable {j} {now : Timestamp} {clock limit : Nat}

theorem takeTurns_succ (j : Job) (k : Nat) (now : Timestamp) (st : Stage) :
    j.takeTurns (k + 1) now st = j.takeTurns k now (j.turn st (.job now)) :=
  rfl

theorem takeTurns_of_ended (j : Job) (k : Nat) (now : Timestamp) (s : TaskStore) :
    j.takeTurns k now ⟨.ended, s⟩ = ⟨.ended, s⟩ := by
  have hothers : ∀ k, Turn.others s (List.replicate k (.job now)) = s := fun k => by
    induction k with
    | zero => rfl
    | succ k ih => exact ih
  rw [takeTurns, play_of_ended, hothers]

theorem takeTurns_congr {j' : Job} (htask : j'.task = j.task) (hsteps : j'.steps = j.steps)
    (k : Nat) (st : Stage) : j'.takeTurns k now st = j.takeTurns k now st := by
  rw [takeTurns, play, turn_congr htask hsteps, takeTurns, play]

/-- The first step is due, or no step is; the others are those of the job that is left after it. -/
theorem countP_due (due millis limit steps : Nat) :
    (List.range (steps + 1)).countP (fun i => due + i * millis ≤ limit) =
      if due ≤ limit then
        (List.range steps).countP (fun i => due + millis + i * millis ≤ limit) + 1
      else 0 := by
  split
  · rename_i hdue
    have hshift : ∀ i, (decide (due + (i + 1) * millis ≤ limit)) =
        decide (due + millis + i * millis ≤ limit) := fun i => by
      rw [Nat.succ_mul, Nat.add_assoc, Nat.add_comm millis]
    rw [List.range_succ_eq_map, List.countP_cons, List.countP_map]
    simp only [Function.comp_def, Nat.succ_eq_add_one, hshift, Nat.zero_mul, Nat.add_zero, hdue,
      decide_true, if_true]
  · rename_i hdue
    rw [List.countP_eq_zero]
    intro i _
    have hle : due ≤ due + i * millis := Nat.le_add_right _ _
    simp only [decide_eq_true_eq]
    omega

section

variable {task : String} {steps stepMillis more due : Nat}

theorem dueSteps_of_due (hdue : due ≤ limit) :
    dueSteps ⟨task, steps, stepMillis, more + 1, some due⟩ clock limit =
      dueSteps ⟨task, steps, stepMillis, more, some (due + stepMillis)⟩ clock limit + 1 :=
  (countP_due due stepMillis limit more).trans (if_pos hdue)

/-- The turns of a job whose next step is due. -/
theorem dueTurns_of_due (hdue : due ≤ limit) :
    dueTurns ⟨task, steps, stepMillis, more + 1, some due⟩ clock limit =
      dueTurns ⟨task, steps, stepMillis, more, some (due + stepMillis)⟩ clock limit + 1 := by
  rw [dueTurns, dueTurns, dueSteps_of_due hdue]
  by_cases hall :
      dueSteps ⟨task, steps, stepMillis, more, some (due + stepMillis)⟩ clock limit = more
  · rw [if_pos hall, if_pos (congrArg (· + 1) hall)]
  · rw [if_neg hall, if_neg fun he => hall (Nat.add_right_cancel he)]

/-- A job whose next step is not due has no turns. -/
theorem dueTurns_of_not_due (hdue : ¬ due ≤ limit) :
    dueTurns ⟨task, steps, stepMillis, more + 1, some due⟩ clock limit = 0 := by
  have hnone : dueSteps ⟨task, steps, stepMillis, more + 1, some due⟩ clock limit = 0 :=
    (countP_due due stepMillis limit more).trans (if_neg hdue)
  rw [dueTurns, hnone]
  exact if_neg (Nat.succ_ne_zero more).symm

/-- The last step is the end of the job as well. -/
theorem stage_step_last (now : Timestamp) (s : TaskStore) :
    let j : Job := ⟨task, steps, stepMillis, 1, some due⟩
    (j.step now s).1 = none ∧ stage (j.step now s) = j.takeTurns 3 now ⟨.reporting 0, s⟩ := by
  intro j
  rcases hupdate : s.update now j.task .working (some j.report) with ⟨_ | _, s'⟩
  · simp [step, stage, takeTurns, play, turn, j, hupdate, List.replicate]
  · simp [step, stage, takeTurns, play, turn, j, hupdate, reported, finish, result,
      List.replicate]

/-- Any other step is the turn in which it is reported. -/
theorem stage_step (now : Timestamp) (s : TaskStore) :
    let j : Job := ⟨task, steps, stepMillis, more + 2, some due⟩
    stage (j.step now s) = j.turn ⟨.reporting (more + 1), s⟩ (.job now) ∧
      ∀ j' ∈ (j.step now s).1,
        j' = ⟨task, steps, stepMillis, more + 1, some (due + stepMillis)⟩ := by
  intro j
  rcases hupdate : s.update now j.task .working (some j.report) with ⟨_ | _, s'⟩
  · simp [step, stage, turn, j, hupdate]
  · simp [step, stage, turn, phase, j, hupdate, reported]

theorem runUntil_of_due {j : Job} {fuel : Nat} (hdue : j.due = some due) (hle : due ≤ limit)
    (s : TaskStore) :
    j.runUntil now limit (fuel + 1) s =
      match j.step now s with
      | (some j, s) => runUntil now limit fuel j s
      | (none, s) => (none, s) := by
  rw [runUntil, hdue]
  exact if_pos (decide_eq_true hle)

/-- **The steps that are due are taken**, one turn for each, and two more turns after the last. -/
theorem stage_runUntil (now : Timestamp) (clock limit : Nat) (s : TaskStore) :
    let j : Job := ⟨task, steps, stepMillis, more + 1, some due⟩
    stage (j.runUntil now limit (more + 1) s) =
      j.takeTurns (j.dueTurns clock limit) now ⟨.reporting more, s⟩ := by
  induction more generalizing due s with
  | zero =>
    intro j
    by_cases hdue : due ≤ limit
    · obtain ⟨hover, hstage⟩ := @stage_step_last task steps stepMillis due now s
      have hturns : j.dueTurns clock limit = 3 := dueTurns_of_due hdue
      rw [hturns, ← hstage, runUntil_of_due rfl hdue]
      rcases hleft : j.step now s with ⟨_ | j', s'⟩
      · rfl
      · exact absurd (congrArg Prod.fst hleft) (by rw [hover]; exact nofun)
    · rw [dueTurns_of_not_due hdue, runUntil]
      exact congrArg stage (if_neg fun hany => hdue (of_decide_eq_true hany))
  | succ more ih =>
    intro j
    by_cases hdue : due ≤ limit
    · obtain ⟨hstage, hleft⟩ := @stage_step task steps stepMillis more due now s
      rw [dueTurns_of_due hdue, takeTurns_succ, ← hstage, runUntil_of_due rfl hdue]
      rcases hstep : j.step now s with ⟨_ | j', s'⟩
      · exact (j.takeTurns_of_ended _ now s').symm
      · obtain rfl := hleft j' (by rw [hstep]; rfl)
        exact (ih s').trans (takeTurns_congr rfl rfl _ _)
    · rw [dueTurns_of_not_due hdue, runUntil]
      exact congrArg stage (if_neg fun hany => hdue (of_decide_eq_true hany))

end

/-- What is left of a job that is under way: the same job, with steps to do. -/
structure Leaves (j j' : Job) : Prop where
  task : j'.task = j.task
  steps : j'.steps = j.steps
  ready : 0 < j'.remaining

theorem leaves_of_step {j' : Job} {s s' : TaskStore} (h : j.step now s = (some j', s')) :
    j.Leaves j' := by
  rw [step] at h
  split at h
  · cases h
  · split at h
    · cases h
    · cases h
    · cases h
      exact ⟨rfl, rfl, Nat.succ_pos _⟩

theorem leaves_of_runUntil {limit fuel : Nat} (hready : 0 < j.remaining) {s s' : TaskStore}
    {j' : Job} (h : j.runUntil now limit fuel s = (some j', s')) : j.Leaves j' := by
  induction fuel generalizing j s with
  | zero =>
    cases h
    exact ⟨rfl, rfl, hready⟩
  | succ fuel ih =>
    rw [runUntil] at h
    split at h
    · rcases hleft : j.step now s with ⟨_ | j₁, s₁⟩
      · rw [hleft] at h
        cases h
      · have hstep := leaves_of_step hleft
        rw [hleft] at h
        have hrest := ih hstep.ready h
        exact ⟨hrest.task.trans hstep.task, hrest.steps.trans hstep.steps, hrest.ready⟩
    · cases h
      exact ⟨rfl, rfl, hready⟩

/-- A job that is under way has steps to do. -/
def Ready (j : Job) : Prop :=
  j.due = none ∨ 0 < j.remaining

/-- **A job that the service runs takes the turns that it has by then**, with nobody between
them. -/
theorem stage_run (hready : j.Ready) (now : Timestamp) (clock limit : Nat) (s : TaskStore) :
    stage (j.run now clock limit s) = j.takeTurns (j.dueTurns clock limit) now ⟨j.phase, s⟩ := by
  obtain ⟨task, steps, stepMillis, remaining, due⟩ := j
  cases remaining with
  | zero =>
    cases due with
    | none =>
      -- Without steps there are two turns, which store the result and end the job.
      rfl
    | some due => exact absurd hready (by simp [Ready])
  | succ more =>
    cases due with
    | none =>
      -- The job begins, which only sets the time of its first step.
      exact stage_runUntil now clock limit s
    | some due => exact stage_runUntil now clock limit s

theorem leaves_of_run (hready : j.Ready) {clock limit : Nat} {s s' : TaskStore} {j' : Job}
    (h : j.run now clock limit s = (some j', s')) : j.Leaves j' := by
  obtain ⟨task, steps, stepMillis, remaining, due⟩ := j
  cases remaining with
  | zero =>
    cases due with
    | none => cases h
    | some due => exact absurd hready (by simp [Ready])
  | succ more =>
    cases due with
    | none =>
      have hleaves := leaves_of_runUntil (Nat.succ_pos more) h
      exact ⟨hleaves.task, hleaves.steps, hleaves.ready⟩
    | some due => exact leaves_of_runUntil (Nat.succ_pos more) h

/-! ### All jobs of a service -/

theorem play_others (j : Job) (p : JobPhase) (s : TaskStore) (uses : List TaskUse) :
    j.play ⟨p, s⟩ (uses.map .other) = ⟨p, uses.foldl TaskUse.apply s⟩ := by
  induction uses generalizing s with
  | nil => rfl
  | cons use uses ih => exact ih (use.apply s)

/-- Turns of a job are uses of the store. -/
theorem exists_uses_of_replicate (j : Job) (now : Timestamp) (k : Nat) (st : Stage) :
    ∃ uses : List TaskUse,
      (j.play st (List.replicate k (.job now))).store = uses.foldl TaskUse.apply st.store := by
  induction k generalizing st with
  | zero => exact ⟨[], rfl⟩
  | succ k ih =>
    obtain ⟨uses, huses⟩ := ih (j.turn st (.job now))
    rw [store_turn_job] at huses
    cases huse : j.use? now st.phase with
    | none =>
      rw [huse] at huses
      exact ⟨uses, huses⟩
    | some use =>
      rw [huse] at huses
      exact ⟨use :: uses, huses⟩

theorem runAll_exists_uses {js : List Job} (hready : ∀ j ∈ js, j.Ready) (now : Timestamp)
    (clock limit : Nat) (s : TaskStore) :
    ∃ uses : List TaskUse, (runAll now clock limit js s).2 = uses.foldl TaskUse.apply s := by
  induction js generalizing s with
  | nil => exact ⟨[], rfl⟩
  | cons j js ih =>
    obtain ⟨hj, hjs⟩ := List.forall_mem_cons.1 hready
    have hk := stage_run hj now clock limit s
    obtain ⟨uses, huses⟩ :=
      j.exists_uses_of_replicate now (j.dueTurns clock limit) ⟨j.phase, s⟩
    obtain ⟨rest, hrest⟩ := ih hjs (j.run now clock limit s).2
    refine ⟨uses ++ rest, ?_⟩
    have hstore : (j.run now clock limit s).2 = uses.foldl TaskUse.apply s :=
      (congrArg Stage.store hk).trans huses
    rw [List.foldl_append, ← hstore, ← hrest]
    rfl

theorem runAll_cons (now : Timestamp) (clock limit : Nat) (j : Job) (js : List Job)
    (s : TaskStore) :
    runAll now clock limit (j :: js) s =
      ((j.run now clock limit s).1.toList ++
          (runAll now clock limit js (j.run now clock limit s).2).1,
        (runAll now clock limit js (j.run now clock limit s).2).2) :=
  rfl

theorem runAll_append (now : Timestamp) (clock limit : Nat) (js js' : List Job) (s : TaskStore) :
    runAll now clock limit (js ++ js') s =
      ((runAll now clock limit js s).1 ++
          (runAll now clock limit js' (runAll now clock limit js s).2).1,
        (runAll now clock limit js' (runAll now clock limit js s).2).2) := by
  induction js generalizing s with
  | nil => rfl
  | cons j js ih => rw [List.cons_append, runAll_cons, ih, runAll_cons, List.append_assoc]

theorem ready_of_mem_runAll {js : List Job} (hready : ∀ j ∈ js, j.Ready) {clock limit : Nat}
    {s : TaskStore} : ∀ j ∈ (runAll now clock limit js s).1, j.Ready := by
  induction js generalizing s with
  | nil => simp [runAll]
  | cons j js ih =>
    obtain ⟨hj, hjs⟩ := List.forall_mem_cons.1 hready
    intro j' hj'
    rcases List.mem_append.1 hj' with hleft | hrest
    · have hrun : j.run now clock limit s = (some j', (j.run now clock limit s).2) :=
        Prod.ext (Option.mem_toList.1 hleft) rfl
      exact .inr (leaves_of_run hj hrun).ready
    · exact ih hjs j' hrest

end Job

/-- **What a service does while time passes is turns**, for each of its jobs: its own, as many as it
has by then, and the uses of the store by the other jobs. What is left of it is the same job, and
the jobs that are left are ready for more. -/
theorem Service.advance_takes_turns {sv : Service} {before after : List Job} {j : Job}
    (hjobs : sv.jobs = before ++ j :: after) (hready : ∀ j' ∈ sv.jobs, j'.Ready) (now : Timestamp)
    (millis : Nat) :
    ∃ (left : Option Job) (before' after' : List Job) (turns : List Turn),
      (sv.advance now millis).2.jobs = before' ++ left.toList ++ after' ∧
      (∀ j' ∈ left, j.Leaves j') ∧ (∀ j' ∈ (sv.advance now millis).2.jobs, j'.Ready) ∧
      Turn.times turns = List.replicate (j.dueTurns sv.clock (sv.clock + millis)) now ∧
      Job.stage (left, (sv.advance now millis).2.tasks) = j.play ⟨j.phase, sv.tasks⟩ turns := by
  have hleft : ∀ j' ∈ (sv.advance now millis).2.jobs, j'.Ready := Job.ready_of_mem_runAll hready
  rw [hjobs] at hready
  obtain ⟨hbefore, hrest⟩ := List.forall_mem_append.1 hready
  obtain ⟨hj, hafter⟩ := List.forall_mem_cons.1 hrest
  obtain ⟨uses, huses⟩ :=
    Job.runAll_exists_uses hbefore now sv.clock (sv.clock + millis) sv.tasks
  have hstage :=
    Job.stage_run hj now sv.clock (sv.clock + millis) (uses.foldl TaskUse.apply sv.tasks)
  let own : List Turn := List.replicate (j.dueTurns sv.clock (sv.clock + millis)) (.job now)
  rcases hran : j.run now sv.clock (sv.clock + millis) (uses.foldl TaskUse.apply sv.tasks)
    with ⟨left, s⟩
  rw [hran] at hstage
  obtain ⟨uses', huses'⟩ := Job.runAll_exists_uses hafter now sv.clock (sv.clock + millis) s
  have hadvance : ((sv.advance now millis).2.jobs, (sv.advance now millis).2.tasks) =
      Job.runAll now sv.clock (sv.clock + millis) sv.jobs sv.tasks := rfl
  rw [hjobs, Job.runAll_append, huses, Job.runAll_cons, hran, Prod.mk.injEq] at hadvance
  obtain ⟨hjobs', htasks⟩ := hadvance
  refine ⟨left, _, _, uses.map .other ++ own ++ uses'.map .other,
    (hjobs'.trans (List.append_assoc _ _ _).symm), ?_, hleft, ?_, ?_⟩
  · rintro j' rfl
    exact Job.leaves_of_run hj hran
  · have hothers : ∀ uses : List TaskUse, Turn.times (uses.map .other) = [] := fun uses => by
      simp [Turn.times, Turn.time?]
    rw [Turn.times_append, Turn.times_append, hothers, hothers, List.append_nil, List.nil_append,
      Turn.times_replicate]
  · have hplay : j.play ⟨j.phase, sv.tasks⟩ (uses.map .other ++ own) = Job.stage (left, s) := by
      rw [Job.play_append, Job.play_others, hstage]
      rfl
    have hothers : j.play (Job.stage (left, s)) (uses'.map .other) =
        Job.stage (left, uses'.foldl TaskUse.apply s) := j.play_others _ s uses'
    rw [htasks, Job.play_append, hplay, hothers, ← huses']

end Switchboard
