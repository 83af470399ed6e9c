import Switchboard.Task.Store

/-!
# Background jobs

A job takes a task through a number of steps, each of which takes the same time, and reports every
step as the task's status message. When all steps are done it stores a result and completes the
task. A job whose task can no longer be updated, because somebody ended or removed it, stops at its
next step and changes nothing more.
-/

namespace Switchboard

/-- What a job is to do. -/
structure JobSpec where
  steps : Nat
  /-- How long a step takes, in milliseconds. -/
  stepMillis : Nat
  /-- How old the task may get. -/
  ttl : Option Duration
deriving DecidableEq

namespace JobSpec

def record : Record JobSpec :=
  Record.of JobSpec.mk
    |>.andThen (.required "steps" Shape.nat32)
    |>.andThen (.required "step_ms" Shape.nat64)
    |>.andThen (.optionalMember "ttl_ms" Duration.ofJson)

def ofJson : Shape JobSpec :=
  record.read "struct JobPayload"

end JobSpec

/-- A job that is on its way. -/
structure Job where
  task : String
  steps : Nat
  stepMillis : Nat
  /-- How many steps have not been done yet. -/
  remaining : Nat
  /-- When the next step will have been done; none before the job begins. -/
  due : Option Nat
deriving DecidableEq

namespace Job

/-- A job that has not begun. -/
def ofSpec (task : String) (spec : JobSpec) : Job :=
  { task, steps := spec.steps, stepMillis := spec.stepMillis, remaining := spec.steps, due := none }

/-- The result of the task. -/
def result (j : Job) : Json :=
  .object [("steps", .int j.steps)]

/-- What is reported when the next step has been done. -/
def report (j : Job) : String :=
  s!"step {j.steps - j.remaining + 1} of {j.steps}"

/-- Stores the result and completes the task. -/
def finish (now : Timestamp) (j : Job) (s : TaskStore) : TaskStore :=
  ((s.setResult j.task j.result).2.update now j.task .completed (some "done")).2

/-- Begins a job: what is left of it. A job without steps is finished at once. -/
def start (now : Timestamp) (clock : Nat) (j : Job) (s : TaskStore) : Option Job × TaskStore :=
  match j.due, j.remaining with
  | some _, _ => (some j, s)
  | none, 0 => (none, j.finish now s)
  | none, _ + 1 => (some { j with due := some (clock + j.stepMillis) }, s)

/-- The next step has been done: what is left of the job. -/
def step (now : Timestamp) (j : Job) (s : TaskStore) : Option Job × TaskStore :=
  match s.update now j.task .working (some j.report) with
  | (false, s) => (none, s)
  | (true, s) =>
    match j.remaining with
    | 0 | 1 => (none, j.finish now s)
    | n + 2 => (some { j with remaining := n + 1, due := j.due.map (· + j.stepMillis) }, s)

/-- Does all steps that are due by an instant, at most `fuel` of them. -/
def runUntil (now : Timestamp) (limit : Nat) :
    (fuel : Nat) → Job → TaskStore → Option Job × TaskStore
  | 0, j, s => (some j, s)
  | fuel + 1, j, s =>
    if j.due.any (· ≤ limit) then
      match j.step now s with
      | (some j, s) => runUntil now limit fuel j s
      | (none, s) => (none, s)
    else (some j, s)

/-- Lets a job go on from one instant to another: what is left of it. -/
def run (now : Timestamp) (clock limit : Nat) (j : Job) (s : TaskStore) : Option Job × TaskStore :=
  match j.start now clock s with
  | (some j, s) => runUntil now limit j.remaining j s
  | (none, s) => (none, s)

/-- Lets jobs go on: what is left of them. -/
def runAll (now : Timestamp) (clock limit : Nat) : List Job → TaskStore → List Job × TaskStore
  | [], s => ([], s)
  | j :: js, s =>
    let (left, s) := j.run now clock limit s
    let (rest, s) := runAll now clock limit js s
    (left.toList ++ rest, s)

end Job
end Switchboard
