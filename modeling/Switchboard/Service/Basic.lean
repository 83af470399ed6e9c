import Switchboard.Cancel.Signal
import Switchboard.Message.Basic
import Switchboard.Service.Job

/-!
# A small service

Four methods: `date` tells the time, `echo` answers its parameters, `sleep` answers after a while
unless it is cancelled, and `jobs/start` starts a background job and answers its task. Time passes
only in `Service.advance`: first everything goes on that need not wait, then the clock moves on.
-/

namespace Switchboard

/-- A request that waits for its time. -/
structure Sleeper where
  handle : Handle
  millis : Nat
  /-- When it is answered. -/
  due : Nat
deriving DecidableEq

structure Service where
  tasks : TaskStore
  signals : Signals := {}
  /-- The present instant, in milliseconds. -/
  clock : Nat := 0
  jobs : List Job := []
  sleepers : List Sleeper := []

namespace Service

/-- The answer of `date`: milliseconds since 1970, and the date in full. -/
def date (now : Timestamp) : Json :=
  .object [("timestamp", .int (now.toNanos / 1000000)), ("iso8601", .str now.text)]

/-- The answer of `sleep`. -/
def slept (millis : Nat) : Outcome :=
  .result (.object [("slept", .int millis)])

/-- How long parameters ask to sleep. -/
def sleepParams (params : Option Json) : Except ErrorObject Nat :=
  match params.bind fun p => p.member? "ms" with
  | some (.int (.ofNat n)) => .ok n
  | _ => .error (.invalidParams "expected \x7b\"ms\": <number>\x7d")

/-- What parameters ask a job to do. -/
def jobParams (params : Option Json) : Except ErrorObject JobSpec :=
  match params with
  | none => .error (.invalidParams "missing params")
  | some p =>
    match JobSpec.ofJson p with
    | .ok spec => .ok spec
    | .error e => .error (.invalidParams e.message)

/-- Starts a job: its task. -/
def startJob (s : Service) (now : Timestamp) (spec : JobSpec) : Outcome × Service :=
  let (task, tasks) := s.tasks.create now spec.ttl (some (.ofMillis spec.stepMillis))
  let shown := (tasks.get? task).elim .null Task.toJson
  (.result shown, { s with tasks, jobs := s.jobs ++ [Job.ofSpec task spec] })

/-- Takes a request in: the handle of its work, and the outcome if it is there at once. -/
def request (s : Service) (now : Timestamp) (r : Request) : Handle × Option Outcome × Service :=
  let (handle, signals) := s.signals.fresh
  let s := { s with signals }
  match r.method with
  | "date" => (handle, some (.result (date now)), s)
  | "echo" => (handle, some (.result (r.params.getD .null)), s)
  | "sleep" =>
    match sleepParams r.params with
    | .error e => (handle, some (.failure e), s)
    | .ok 0 => (handle, some (slept 0), s)
    | .ok millis =>
      let sleeper := { handle, millis, due := s.clock + millis }
      (handle, none, { s with sleepers := s.sleepers ++ [sleeper] })
  | "jobs/start" =>
    match jobParams r.params with
    | .error e => (handle, some (.failure e), s)
    | .ok spec => let (outcome, s) := s.startJob now spec; (handle, some outcome, s)
  | method => (handle, some (.failure (.methodNotFound method)), s)

/-- Cancels the work behind a handle. -/
def cancel (s : Service) (h : Handle) (reason : Option String) : Service :=
  { s with signals := s.signals.fire h reason }

/-- Wakes the sleepers that were cancelled: their outcomes. -/
def wakeCancelled (s : Service) : List (Handle × Outcome) × Service :=
  let (woken, sleepers) := s.sleepers.partition fun x => (s.signals.get x.handle).isFired
  (woken.map fun x => (x.handle, .failure (.internal "cancelled")), { s with sleepers })

/-- Wakes the sleepers whose time has come: their outcomes. -/
def wakeDue (s : Service) : List (Handle × Outcome) × Service :=
  let (woken, sleepers) := s.sleepers.partition fun x => x.due ≤ s.clock
  (woken.map fun x => (x.handle, slept x.millis), { s with sleepers })

/-- Lets time pass: the outcomes of the requests that were waiting. -/
def advance (s : Service) (now : Timestamp) (millis : Nat) : List (Handle × Outcome) × Service :=
  let (cancelled, s) := s.wakeCancelled
  let clock := s.clock + millis
  let (jobs, tasks) := Job.runAll now s.clock clock s.jobs s.tasks
  let (due, s) := { s with tasks, jobs, clock }.wakeDue
  (cancelled ++ due, s)

end Service
end Switchboard
