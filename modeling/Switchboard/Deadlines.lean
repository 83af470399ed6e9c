import Switchboard.RequestId
import Switchboard.Table

/-!
# Deadlines

Deadlines are not timers of their own: somebody sweeps them from time to time and thereby fires
those that are due. A sweep first takes all deadlines off the table that are due at its instant and
then fires them one after another, so what an alarm arms or disarms does not change which alarms
this sweep fires.

Instants are milliseconds of a clock that never runs backwards, and they have no upper bound: what
becomes of a deadline so late that the clock of a machine cannot express it is left out. Timeouts of
64 bits of milliseconds, such as those of a configuration, do not come near it.
-/

namespace Switchboard

/-- An instant, and what is to happen once it has come. -/
structure Deadline (α : Type) where
  expiry : Nat
  alarm : α

/-- The armed deadlines, at most one for each identifier. -/
abbrev Deadlines (α : Type) := Table RequestId (Deadline α)

namespace Deadlines

variable {α : Type}

/-- Arms a deadline; an earlier one for the same identifier is dropped. -/
def arm (id : RequestId) (expiry : Nat) (alarm : α) (d : Deadlines α) : Deadlines α :=
  d.insert id ⟨expiry, alarm⟩

/-- Arms a deadline, if there is an instant for it. -/
def armAny (id : RequestId) (expiry? : Option Nat) (alarm : α) (d : Deadlines α) : Deadlines α :=
  match expiry? with
  | some expiry => d.arm id expiry alarm
  | none => d

/-- Disarms a deadline; whether there was one. -/
def disarm (id : RequestId) (d : Deadlines α) : Bool × Deadlines α :=
  (d.contains id, d.erase id)

/-- The earliest instant at which a deadline falls due. -/
def next? (d : Deadlines α) : Option Nat :=
  (d.toList.map fun e => e.2.expiry).min?

/-- Whether an entry is due at an instant. -/
def isDue (now : Nat) (e : RequestId × Deadline α) : Bool :=
  e.2.expiry ≤ now

/-- What is due at an instant. -/
def due (now : Nat) (d : Deadlines α) : List (RequestId × α) :=
  (d.toList.filter (isDue now)).map fun e => (e.1, e.2.alarm)

/-- What is not due yet. -/
def notDue (now : Nat) (d : Deadlines α) : Deadlines α :=
  d.filter fun e => !isDue now e

end Deadlines

/-! ### Alarms -/

/-- What happens when a deadline has passed: notes are left, deadlines armed and disarmed. -/
inductive Alarm (ε : Type)
  | stop
  /-- Leaves a note. -/
  | note (e : ε) (next : Alarm ε)
  | arm (id : RequestId) (expiry : Nat) (alarm : Alarm ε) (next : Alarm ε)
  /-- Goes on according to whether there was a deadline to disarm. -/
  | disarm (id : RequestId) (next : Bool → Alarm ε)

namespace Alarm

variable {ε : Type}

/-- Carries an alarm out: the notes, and the deadlines after it. -/
def run : Alarm ε → Deadlines (Alarm ε) → List ε × Deadlines (Alarm ε)
  | .stop, d => ([], d)
  | .note e next, d => let (notes, d) := next.run d; (e :: notes, d)
  | .arm id expiry alarm next, d => next.run (d.arm id expiry alarm)
  | .disarm id next, d => let (found, d) := d.disarm id; (next found).run d

/-- Carries alarms out one after another. -/
def runAll : List (RequestId × Alarm ε) → Deadlines (Alarm ε) → List ε × Deadlines (Alarm ε)
  | [], d => ([], d)
  | (_, alarm) :: rest, d =>
    let (notes, d) := alarm.run d
    let (more, d) := runAll rest d
    (notes ++ more, d)

end Alarm

/-- What a sweep did. -/
structure Sweep (ε : Type) where
  fired : List RequestId
  notes : List ε
  remaining : Deadlines (Alarm ε)

/-- Fires what is due at an instant, in a given order. -/
def Sweep.inOrder {ε : Type} (now : Nat) (d : Deadlines (Alarm ε))
    (order : List (RequestId × Alarm ε)) : Sweep ε :=
  let (notes, remaining) := Alarm.runAll order (d.notDue now)
  { fired := order.map Prod.fst, notes, remaining }

/-- Fires what is due at an instant, in the order in which it was armed. -/
def Deadlines.sweep {ε : Type} (now : Nat) (d : Deadlines (Alarm ε)) : Sweep ε :=
  .inOrder now d (d.due now)

end Switchboard
