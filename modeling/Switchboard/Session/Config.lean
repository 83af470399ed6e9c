import Switchboard.Json.Shape

/-! # Configuration of a session -/

namespace Switchboard

structure SessionConfig where
  /-- Milliseconds until a call fails that names no timeout of its own; none for never. -/
  defaultTimeout : Option Nat := some 60000
  /-- Milliseconds between two sweeps of the deadlines. -/
  sweepInterval : Nat := 100
deriving DecidableEq

namespace SessionConfig

/-- A configuration whose missing fields are those of `base`. -/
def record (base : SessionConfig) : Record SessionConfig :=
  Record.of SessionConfig.mk
    |>.andThen (.withDefault "default_timeout_ms" base.defaultTimeout (Shape.nullable Shape.nat64))
    |>.andThen (.withDefault "sweep_interval_ms" base.sweepInterval Shape.nat64)

def ofJsonOver (base : SessionConfig) : Shape SessionConfig :=
  (record base).read "struct SessionConfig"

def ofJson : Shape SessionConfig :=
  ofJsonOver {}

def toJson (c : SessionConfig) : Json :=
  .object
    [("default_timeout_ms", c.defaultTimeout.elim .null fun n => .int n),
      ("sweep_interval_ms", .int c.sweepInterval)]

/-- The time between two sweeps, which is never nothing. -/
def period (c : SessionConfig) : Nat :=
  max c.sweepInterval 1

end SessionConfig
end Switchboard
