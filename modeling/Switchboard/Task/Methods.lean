import Switchboard.Message.Basic
import Switchboard.Task.Store

/-!
# Tasks as remote methods

`TaskStore.answer?` answers the five methods under `tasks/` from a store; any other method is left
to somebody else. Parameters that are left out count as an empty object, and every failure is an
invalid-parameters error.
-/

namespace Switchboard

/-- The methods that a task store answers. -/
inductive TaskMethod
  | create
  | get
  | list
  | cancel
  | result
deriving DecidableEq

def TaskMethod.ofName? : String → Option TaskMethod
  | "tasks/create" => some .create
  | "tasks/get" => some .get
  | "tasks/list" => some .list
  | "tasks/cancel" => some .cancel
  | "tasks/result" => some .result
  | _ => none

namespace TaskStore

/-- The task that parameters name. -/
def idParams : Shape String :=
  (Record.required "taskId" Shape.text).read "struct TaskIdParams"

/-- The cursor that parameters give. -/
def listParams : Shape (Option String) :=
  (Record.optional "cursor" Shape.text).read "struct ListParams"

/-- Time to live and poll interval of a new task. -/
def createParams : Shape (Option Duration × Option Duration) :=
  (Record.of Prod.mk
    |>.andThen (.optional "ttl" Duration.ofJson)
    |>.andThen (.optional "pollInterval" Duration.ofJson)).read "struct CreateParams"

/-- Reads parameters. -/
def readParams {α : Type} (shape : Shape α) (params : Option Json) : Except ErrorObject α :=
  match shape (params.getD (.obj [])) with
  | .ok a => .ok a
  | .error e => .error (.invalidParams s!"invalid params: {e.message}")

/-- The error that a refused operation is answered with. -/
def refusal (e : TaskError) : ErrorObject :=
  .invalidParams e.message

/-- The task of an identifier, as an answer. -/
def taskById (s : TaskStore) (id : String) : Except ErrorObject Json :=
  match s.get? id with
  | some task => .ok task.toJson
  | none => .error (refusal (.notFound id))

/-- The result of a task, as an answer. Without one, a task that is final has the result `null`. -/
def resultById (s : TaskStore) (id : String) : Except ErrorObject Json :=
  match s.get? id, s.result? id with
  | none, _ => .error (refusal (.notFound id))
  | some _, some v => .ok v
  | some task, none =>
    if task.status.isFinal then .ok .null
    else .error (.invalidParams s!"task {id} is still {task.status.name}")

/-- A page of tasks, as an answer. -/
def pageBehind (s : TaskStore) (cursor : Option String) : Except ErrorObject Json :=
  match s.page cursor with
  | .ok page => .ok page.toJson
  | .error e => .error (refusal e)

/-- Carries a method out: what it answers, and the store that it leaves behind either way. -/
def perform (s : TaskStore) (now : Timestamp) (method : TaskMethod) (params : Option Json) :
    Except ErrorObject Json × TaskStore :=
  match method with
  | .create =>
    match readParams createParams params with
    | .error e => (.error e, s)
    | .ok (ttl, poll) =>
      let (id, s) := s.create now ttl poll
      (s.taskById id, s)
  | .get => ((readParams idParams params).bind s.taskById, s)
  | .list => ((readParams listParams params).bind s.pageBehind, s)
  | .cancel =>
    match readParams idParams params with
    | .error e => (.error e, s)
    | .ok id =>
      match s.cancel now id with
      | (.ok task, s) => (.ok task.toJson, s)
      | (.error e, s) => (.error (refusal e), s)
  | .result => ((readParams idParams params).bind s.resultById, s)

/-- The outcome that an answer is sent as. -/
def outcomeOf : Except ErrorObject Json → Outcome
  | .ok v => .result v
  | .error e => .failure e

/-- Answers a request if it names a task method: the outcome, and the store after it. -/
def answer? (s : TaskStore) (now : Timestamp) (r : Request) : Option (Outcome × TaskStore) :=
  (TaskMethod.ofName? r.method).map fun method =>
    let (answer, s) := s.perform now method r.params
    (outcomeOf answer, s)

end TaskStore
end Switchboard
