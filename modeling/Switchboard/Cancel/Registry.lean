import Switchboard.Cancel.Signal
import Switchboard.RequestId
import Switchboard.Table

/-!
# Registered work

A `Registry` knows which handle serves which request, so that a cancellation that names a request
reaches the work done for it. A cancellation for a request that is not registered is not
remembered. When an identifier is used again the newer handle takes its place, and the end of the
older work no longer concerns the registration.
-/

namespace Switchboard

/-- Signals, and the handles that serve requests. -/
structure Registry where
  signals : Signals := {}
  table : Table RequestId Handle := .empty

namespace Registry

/-- A handle with a signal of its own. -/
def fresh (r : Registry) : Handle × Registry :=
  let (h, signals) := r.signals.fresh
  (h, { r with signals })

/-- The signal behind a handle. -/
def signal (r : Registry) (h : Handle) : Signal :=
  r.signals.get h

/-- Fires the signal behind a handle. -/
def fire (r : Registry) (h : Handle) (reason : Option String) : Registry :=
  { r with signals := r.signals.fire h reason }

def isRegistered (r : Registry) (id : RequestId) : Bool :=
  r.table.contains id

/-- How many requests are registered. -/
def count (r : Registry) : Nat :=
  r.table.size

/-- Lets a handle serve a request, in the place of an earlier one. -/
def register (r : Registry) (id : RequestId) (h : Handle) : Registry :=
  { r with table := r.table.insert id h }

/-- Fires the handle of a request and forgets the request; whether there was one. -/
def cancel (r : Registry) (id : RequestId) (reason : Option String) : Bool × Registry :=
  match r.table.take id with
  | some (h, table) => (true, { signals := r.signals.fire h reason, table })
  | none => (false, r)

/-- Forgets a request; whether there was one. -/
def unregister (r : Registry) (id : RequestId) : Bool × Registry :=
  (r.isRegistered id, { r with table := r.table.erase id })

/-- Forgets a request if this handle serves it; whether that was so. -/
def release (r : Registry) (id : RequestId) (h : Handle) : Bool × Registry :=
  if r.table.get? id = some h then (true, { r with table := r.table.erase id }) else (false, r)

/-- Fires the handles of all requests and forgets them; how many there were. -/
def cancelAll (r : Registry) (reason : Option String) : Nat × Registry :=
  (r.count, { signals := r.signals.fireAll (r.table.toList.map Prod.snd) reason, table := .empty })

end Registry
end Switchboard
