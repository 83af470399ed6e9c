/-!
# Failures of streams

How reading a stream or writing to it can fail: a kind that callers can tell apart, and words.
-/

namespace Switchboard

/-- What kind of failure it is. -/
inductive FailureKind
  /-- The bytes that were read are wrong. -/
  | invalidData
  /-- Nobody takes what is to be written. -/
  | brokenPipe
  | other
deriving DecidableEq

structure StreamFailure where
  kind : FailureKind
  text : String
deriving DecidableEq

end Switchboard
