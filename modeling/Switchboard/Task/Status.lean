import Switchboard.Json.Shape

/-!
# The status of a task

A task starts out working, may wait for input and go on, and ends completed, failed or cancelled:

```text
  working <-----> inputRequired
     |                 |
     +--> completed <--+
     +--> failed    <--+
     +--> cancelled <--+
```

A status that is not final may also be stated again, to refresh its message.
-/

namespace Switchboard

inductive TaskStatus
  | working
  | inputRequired
  | completed
  | failed
  | cancelled
deriving DecidableEq

namespace TaskStatus

/-- All statuses with their names. -/
def names : List (String × TaskStatus) :=
  [("working", working), ("input_required", inputRequired), ("completed", completed),
    ("failed", failed), ("cancelled", cancelled)]

def name : TaskStatus → String
  | working => "working"
  | inputRequired => "input_required"
  | completed => "completed"
  | failed => "failed"
  | cancelled => "cancelled"

/-- No edge leads out of it. -/
def isFinal : TaskStatus → Bool
  | completed | failed | cancelled => true
  | working | inputRequired => false

/-- Whether the graph has an edge, a status that is not final having one to itself. -/
def canBecome : TaskStatus → TaskStatus → Bool
  | working, _ | inputRequired, _ => true
  | completed, _ | failed, _ | cancelled, _ => false

theorem canBecome_eq_not_isFinal (s t : TaskStatus) : s.canBecome t = !s.isFinal := by
  cases s <;> rfl

def toJson (s : TaskStatus) : Json := .str s.name

def ofJson : Shape TaskStatus :=
  Shape.variant names

theorem ofJson_toJson (s : TaskStatus) : ofJson s.toJson = .ok s := by
  cases s <;> rfl

end TaskStatus
end Switchboard
