import Switchboard.RequestId
import Switchboard.ErrorObject

/-!
# Messages

A request asks for an answer under its identifier, a notification asks for none, a response is the
answer. A peer withdraws a request with the notification `notifications/cancelled`, whose
parameters name the request and may give a reason.

`Message.toJson` is the wire form.
-/

namespace Switchboard

/-- Asks the peer to do something and to answer. -/
structure Request where
  id : RequestId
  method : String
  params : Option Json := none
deriving DecidableEq

/-- Tells the peer something. -/
structure Notification where
  method : String
  params : Option Json := none
deriving DecidableEq

/-- What became of a request. -/
inductive Outcome
  | result (v : Json)
  | failure (e : ErrorObject)
deriving DecidableEq

/-- Answers the peer's request. -/
structure Response where
  id : RequestId
  outcome : Outcome
deriving DecidableEq

/-- What two peers send each other. -/
inductive Message
  | request (r : Request)
  | notification (n : Notification)
  | response (r : Response)
deriving DecidableEq

/-! ### Cancellation -/

/-- Says which request is withdrawn, and possibly why. -/
structure Cancellation where
  id : RequestId
  reason : Option String := none
deriving DecidableEq

namespace Cancellation

/-- The method that withdraws a request. -/
def method : String := "notifications/cancelled"

/-- The members, in the order of the fields; the reason only if there is one. -/
def fields (c : Cancellation) : List (String × Json) :=
  [("requestId", c.id.toJson)] ++ c.reason.toList.map fun r => ("reason", .str r)

def toJson (c : Cancellation) : Json :=
  .object c.fields

def record : Record Cancellation :=
  Record.of Cancellation.mk
    |>.andThen (.required "requestId" RequestId.ofJson)
    |>.andThen (.optional "reason" Shape.text)

def ofJson : Shape Cancellation :=
  record.read "struct CancelledParams"

/-- The notification that tells the peer. -/
def toNotification (c : Cancellation) : Notification :=
  ⟨method, some c.toJson⟩

/-- The message that tells the peer. -/
def toMessage (c : Cancellation) : Message :=
  .notification c.toNotification

end Cancellation

namespace Notification

/-- The cancellation that a notification tells, if it has the method and well-formed
parameters. -/
def cancellation? (n : Notification) : Option Cancellation :=
  if n.method = Cancellation.method then
    match n.params with
    | some params => (Cancellation.ofJson params).toOption
    | none => none
  else none

end Notification

/-! ### The wire form -/

namespace Message

/-- The protocol's version, which every message carries. -/
def version : Json := .str "2.0"

/-- The members of a message, in any order. -/
def fields : Message → List (String × Json)
  | .request r =>
    [("jsonrpc", version), ("id", r.id.toJson), ("method", .str r.method)] ++
      r.params.toList.map fun p => ("params", p)
  | .notification n =>
    [("jsonrpc", version), ("method", .str n.method)] ++
      n.params.toList.map fun p => ("params", p)
  | .response ⟨id, .result v⟩ => [("jsonrpc", version), ("id", id.toJson), ("result", v)]
  | .response ⟨id, .failure e⟩ => [("jsonrpc", version), ("id", id.toJson), ("error", e.toJson)]

def toJson (m : Message) : Json :=
  .object m.fields

/-- The request that a message is about: one that it makes, answers or withdraws. -/
def subject? : Message → Option RequestId
  | .request r => some r.id
  | .response r => some r.id
  | .notification n => n.cancellation?.map Cancellation.id

end Message
end Switchboard
