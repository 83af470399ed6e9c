import Switchboard.Json.Shape

/-!
# Error objects

The `error` member of a response: a code, a message and possibly data. Codes from -32768 to -32000
belong to the protocol; the ones it uses are named here.
-/

namespace Switchboard

/-- Why a request failed, as the peer is told. -/
structure ErrorObject where
  code : Int64
  message : String
  data : Option Json := none
deriving DecidableEq

namespace ErrorObject

def methodNotFoundCode : Int64 := -32601
def invalidParamsCode : Int64 := -32602
def internalCode : Int64 := -32603
def timeoutCode : Int64 := -32001
def cancelledCode : Int64 := -32800

def methodNotFound (method : String) : ErrorObject :=
  { code := methodNotFoundCode, message := s!"Method not found: {method}" }

def invalidParams (message : String) : ErrorObject :=
  { code := invalidParamsCode, message }

def internal (message : String) : ErrorObject :=
  { code := internalCode, message }

/-- Message and code on one line. -/
def display (e : ErrorObject) : String :=
  s!"{e.message} (code {e.code.toInt})"

/-- The members, in the order of the fields; data only if there is some. -/
def fields (e : ErrorObject) : List (String × Json) :=
  [("code", .int e.code.toInt), ("message", .str e.message)] ++
    e.data.toList.map fun d => ("data", d)

def toJson (e : ErrorObject) : Json :=
  .object e.fields

/-- Data that is `null` counts as none. -/
def record : Record ErrorObject :=
  Record.of (fun code message data => ⟨Int64.ofInt code, message, data⟩)
    |>.andThen (.required "code" Shape.int64)
    |>.andThen (.required "message" Shape.text)
    |>.andThen (.optional "data" Shape.any)

def ofJson : Shape ErrorObject :=
  record.read "struct ErrorObject"

end ErrorObject
end Switchboard
