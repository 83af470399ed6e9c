import Switchboard.ErrorObject

/-!
# Errors of calls

What a caller is told when its call does not end with a result. `CallError.toErrorObject` is the
form in which such an error is passed on to a peer.
-/

namespace Switchboard

/-- Why a call did not end with a result. -/
inductive CallError
  /-- Its deadline passed before an answer came. -/
  | timeout
  /-- It was cancelled, by either side. -/
  | cancelled (reason : Option String)
  /-- The peer answered with an error. -/
  | remote (e : ErrorObject)
  /-- The request could not be sent. -/
  | transport (text : String)
  /-- The connection closed first. -/
  | disconnected
deriving DecidableEq

namespace CallError

def message : CallError → String
  | .timeout => "request timed out"
  | .cancelled none => "request cancelled"
  | .cancelled (some reason) => s!"request cancelled: {reason}"
  | .remote e => s!"remote error: {e.display}"
  | .transport text => s!"transport error: {text}"
  | .disconnected => "connection closed before a response arrived"

/-- The peer's own error object is passed on as it is. -/
def toErrorObject (e : CallError) : ErrorObject :=
  match e with
  | .remote o => o
  | .timeout => { code := ErrorObject.timeoutCode, message := e.message }
  | .cancelled _ => { code := ErrorObject.cancelledCode, message := e.message }
  | .transport _ | .disconnected => .internal e.message

end CallError
end Switchboard
