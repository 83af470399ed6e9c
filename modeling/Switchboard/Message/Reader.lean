import Switchboard.Message.Basic
import Switchboard.Json.Reader

/-!
# Reading messages

`Message.ofJson` tells the three kinds of message apart by their members, and `Message.parse` does
so for a text. A method makes a request or, without an identifier, a notification; without a
method an identifier makes a response, which then has either a result or an error. An identifier
that is `null` counts as none, and members that the kind does not use are ignored.
-/

namespace Switchboard
namespace Message

/-- What keeps a JSON value from being a message. -/
inductive Defect
  | notAnObject
  | noVersion
  | badId
  | badMethod
  /-- A response without result and error, or with both. -/
  | badOutcome
  | noMethodNorId
deriving DecidableEq

def Defect.message : Defect → String
  | .notAnObject => "message is not an object"
  | .noVersion => "missing jsonrpc version"
  | .badId => "id must be a number or string"
  | .badMethod => "method is not a string"
  | .badOutcome => "response needs exactly one of result and error"
  | .noMethodNorId => "message has neither method nor id"

/-- Why a text is no message. -/
inductive Error
  /-- It is no JSON text. -/
  | text (fault : Json.Fault)
  /-- The error of a response is no error object. -/
  | shape (e : ShapeError)
  | defect (d : Defect)

/-- The identifier among members. -/
def readId (ms : Json.Members) : Except Error (Option RequestId) :=
  match Json.Members.get? "id" ms with
  | none | some .null => .ok none
  | some v =>
    match RequestId.ofJson v with
    | .ok id => .ok (some id)
    | .error _ => .error (.defect .badId)

/-- The response with these members. -/
def readResponse (id : RequestId) (ms : Json.Members) : Except Error Message :=
  match Json.Members.get? "result" ms, Json.Members.get? "error" ms with
  | some v, none => .ok (.response ⟨id, .result v⟩)
  | none, some v =>
    match ErrorObject.ofJson v with
    | .ok e => .ok (.response ⟨id, .failure e⟩)
    | .error e => .error (.shape e)
  | none, none | some _, some _ => .error (.defect .badOutcome)

/-- The message that a value is the wire form of. -/
def ofJson : Json → Except Error Message
  | .obj ms =>
    if Json.Members.get? "jsonrpc" ms = some version then
      match readId ms with
      | .error e => .error e
      | .ok id =>
        let params := Json.Members.get? "params" ms
        match Json.Members.get? "method" ms, id with
        | some (.str method), some id => .ok (.request ⟨id, method, params⟩)
        | some (.str method), none => .ok (.notification ⟨method, params⟩)
        | some _, _ => .error (.defect .badMethod)
        | none, some id => readResponse id ms
        | none, none => .error (.defect .noMethodNorId)
    else .error (.defect .noVersion)
  | _ => .error (.defect .notAnObject)

/-- The message that a text writes. -/
def parse (bs : List UInt8) : Except Error Message :=
  match Json.read bs with
  | .ok v => ofJson v
  | .error fault => .error (.text fault)

end Message
end Switchboard
