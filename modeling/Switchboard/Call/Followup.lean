import Switchboard.CallError
import Switchboard.OneShot
import Switchboard.RequestId

/-!
# Calls and what follows them

A call waits for its outcome with two callbacks, one for a result and one for an error; resolving
the call picks one of them. Callbacks are data, so that they can be counted and reasoned about: a
`Followup` issues further calls, finitely many, whose own callbacks may depend on their outcomes, or
sends an outcome to somebody who waits for it. The two callbacks of an awaited call share the sender
of one channel, and it is gone when the call is dropped and neither has run.
-/

namespace Switchboard

/-- What is asked of the peer. -/
structure CallSpec where
  method : String
  params : Option Json := none
  /-- Milliseconds after which the call fails. -/
  timeout : Option Nat := none
  /-- What the caller calls it. -/
  label : Option String := none
  /-- The channel whose sender the callbacks share. -/
  reply : Option Channel := none

/-- How a call ended. -/
abbrev CallOutcome := Except CallError Json

/-- What a caller does next. -/
inductive Followup
  | done
  /-- Sends an outcome to whoever waits for it. -/
  | deliver (channel : Channel) (outcome : CallOutcome)
  /-- Issues a call, and goes on. -/
  | call (spec : CallSpec) (onResult : Json → Followup) (onError : CallError → Followup)
    (next : Followup)

/-- A call, and what its caller does with the outcome. -/
structure Call where
  spec : CallSpec
  onResult : Json → Followup := fun _ => .done
  onError : CallError → Followup := fun _ => .done

namespace Call

/-- The callback that an outcome picks. -/
def resolve (c : Call) : CallOutcome → Followup
  | .ok v => c.onResult v
  | .error e => c.onError e

/-- A call that is issued again when it fails, so many times. -/
def retrying (spec : CallSpec) : Nat → Call
  | 0 => { spec }
  | n + 1 =>
    let again := retrying spec n
    { spec, onError := fun _ => .call spec again.onResult again.onError .done }

/-- A call whose outcome somebody waits for: both callbacks send it on the same channel. -/
def awaited (spec : CallSpec) (channel : Channel) : Call where
  spec := { spec with reply := some channel }
  onResult v := .deliver channel (.ok v)
  onError e := .deliver channel (.error e)

/-- The channels after a call has been dropped without an outcome: its sender goes with it. -/
def drop (c : Call) (channels : Channels CallOutcome) : Channels CallOutcome :=
  c.spec.reply.elim channels channels.close

/-- A pending call in a detailed form, for diagnosis. -/
def inspect (id : RequestId) : String :=
  s!"PendingRequest \x7b id: {id.inspect} \x7d"

end Call
end Switchboard
