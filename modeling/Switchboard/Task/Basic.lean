import Switchboard.Task.Status
import Switchboard.Time.Reader

/-!
# Tasks and pages

A task is work that outlives the request that started it. `Task.toJson` is its wire form: times in
UTC, spans in whole milliseconds, members that are not there left out.
-/

namespace Switchboard

structure Task where
  id : String
  status : TaskStatus
  statusMessage : Option String := none
  createdAt : Timestamp
  lastUpdatedAt : Timestamp
  /-- How long the task is kept after its creation. -/
  ttl : Option Duration := none
  /-- How often a client should ask for the task. -/
  pollInterval : Option Duration := none
deriving DecidableEq

/-- Whole milliseconds, of 64 bits. -/
def Duration.toJson (d : Duration) : Json :=
  .int (d.millis % UInt64.size : Nat)

/-- Milliseconds of 64 bits. -/
def Duration.ofJson : Shape Duration := fun v =>
  (Shape.nat64 v).map Duration.ofMillis

namespace Task

/-- The members, in the order of the fields. -/
def fields (t : Task) : List (String × Json) :=
  [("taskId", .str t.id), ("status", t.status.toJson)] ++
    (t.statusMessage.toList.map fun m => ("statusMessage", .str m)) ++
    [("createdAt", t.createdAt.toJson), ("lastUpdatedAt", t.lastUpdatedAt.toJson)] ++
    (t.ttl.toList.map fun d => ("ttl", d.toJson)) ++
    t.pollInterval.toList.map fun d => ("pollInterval", d.toJson)

def toJson (t : Task) : Json :=
  .object t.fields

def record : Record Task :=
  Record.of Task.mk
    |>.andThen (.required "taskId" Shape.text)
    |>.andThen (.required "status" TaskStatus.ofJson)
    |>.andThen (.optional "statusMessage" Shape.text)
    |>.andThen (.required "createdAt" Timestamp.ofJson)
    |>.andThen (.required "lastUpdatedAt" Timestamp.ofJson)
    |>.andThen (.optional "ttl" Duration.ofJson)
    |>.andThen (.optional "pollInterval" Duration.ofJson)

def ofJson : Shape Task :=
  record.read "struct Task"

/-- Whether the task is older than it may get. -/
def isExpired (t : Task) (now : Timestamp) : Bool :=
  match t.ttl with
  | some ttl => ttl.nanos < (now.since t.createdAt).nanos
  | none => false

end Task

/-- Part of a listing of tasks. -/
structure TaskPage where
  tasks : List Task
  /-- Where the next page starts, if there is one. -/
  nextCursor : Option String := none
deriving DecidableEq

namespace TaskPage

/-- The members, in the order of the fields, with the tasks written by `item`. -/
def fieldsWith (item : Task → Json) (p : TaskPage) : List (String × Json) :=
  [("tasks", .arr (p.tasks.map item))] ++
    p.nextCursor.toList.map fun c => ("nextCursor", .str c)

def toJson (p : TaskPage) : Json :=
  .object (p.fieldsWith Task.toJson)

def record : Record TaskPage :=
  Record.of TaskPage.mk
    |>.andThen (.required "tasks" (Shape.list Task.ofJson))
    |>.andThen (.optional "nextCursor" Shape.text)

def ofJson : Shape TaskPage :=
  record.read "struct TaskPage"

end TaskPage
end Switchboard
