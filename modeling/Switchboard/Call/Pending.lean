import Switchboard.Call.Followup
import Switchboard.Table

/-!
# Pending calls

Calls that wait for their outcome, each under its identifier. Whoever takes a call off the table
gets it alone, so that of all the events that might end a call only the first one does.
-/

namespace Switchboard

/-- The calls that wait for an outcome. -/
abbrev PendingCalls := Table RequestId Call

namespace PendingCalls

/-- Lets a call wait; an earlier one under the same identifier is dropped without an outcome. -/
def register (id : RequestId) (c : Call) (p : PendingCalls) : PendingCalls :=
  p.insert id c

/-- Takes a call off the table, if it is still waiting. -/
def complete (id : RequestId) (p : PendingCalls) : Option (Call × PendingCalls) :=
  p.take id

/-- The same for a call that gets no answer: its deadline has passed, or it is cancelled. -/
def cancel (id : RequestId) (p : PendingCalls) : Option (Call × PendingCalls) :=
  p.complete id

/-- Takes all calls off the table. -/
def drain (p : PendingCalls) : List (RequestId × Call) × PendingCalls :=
  (p.toList, .empty)

end PendingCalls
end Switchboard
