import Switchboard.Task.Methods
import Switchboard.Writer

/-!
# Serving a connection

A `Connection` serves the requests of one peer. Task methods are answered at once from a task
store, if there is one. Any other request is worked on by a handler under a handle of its own: the
work either ends with an outcome, which is sent to the peer, or its signal fires first, and then
nothing is sent.

Handlers take their time. `Connection.poll` asks each running piece of work for its outcome, in the
order in which the requests came. `Connection.write` puts on the stream what has been sent; an
answer that is too large for a frame ends the writer, and the peer gets no answers from then on.
-/

namespace Switchboard

/-- What the application makes of a request: its outcome, or nothing yet. -/
abbrev Handler := Request → Option Outcome

/-- A request that is being worked on. -/
structure Work where
  request : Request
  handle : Handle
deriving DecidableEq

/-- What became of a piece of work. -/
structure Ended where
  work : Work
  /-- None if the work was cancelled. -/
  outcome : Option Outcome
deriving DecidableEq

structure Connection where
  session : Session
  /-- Puts on the stream what the session sends. -/
  writer : Writer := {}
  /-- Answers the task methods. -/
  tasks : Option TaskStore := none
  /-- The bytes received that are no whole frame yet. -/
  buffer : List UInt8 := []
  /-- Whether messages are still taken in. -/
  isOpen : Bool := true
  running : List Work := []
  ended : List Ended := []

namespace Connection

/-! ### Work -/

/-- Takes a piece of work off the list of those that run. -/
def retire (c : Connection) (w : Work) (outcome : Option Outcome) : Connection :=
  { c with
    session := c.session.finishInbound w.request.id w.handle
    running := c.running.filter fun v => v.handle ≠ w.handle
    ended := c.ended ++ [⟨w, outcome⟩] }

/-- The work has ended; the peer is told the outcome. -/
def complete (c : Connection) (w : Work) (outcome : Outcome) : Connection :=
  let c := c.retire w (some outcome)
  { c with session := c.session.hand (.response ⟨w.request.id, outcome⟩) }

/-- The work was cancelled; the peer is told nothing. -/
def abandon (c : Connection) (w : Work) : Connection :=
  c.retire w none

/-- Lets a piece of work go on: it is abandoned if its signal has fired, and otherwise ends if the
handler has an outcome. -/
def advance (handler : Handler) (c : Connection) (w : Work) : Connection :=
  if (c.session.inbound.signal w.handle).isFired then c.abandon w
  else
    match handler w.request with
    | some outcome => c.complete w outcome
    | none => c

/-- Lets all work go on. -/
def poll (handler : Handler) (c : Connection) : Connection :=
  c.running.foldl (advance handler) c

/-! ### Messages -/

/-- Answers a task method, or begins the work on any other request. -/
def dispatch (now : Timestamp) (c : Connection) (r : Request) : Connection :=
  match c.tasks.bind fun store => store.answer? now r with
  | some (outcome, store) =>
    { c with tasks := some store, session := c.session.hand (.response ⟨r.id, outcome⟩) }
  | none =>
    let (handle, session) := c.session.beginInbound r.id
    { c with session, running := c.running ++ [⟨r, handle⟩] }

/-- Takes a message in. Notifications that the session does not know are ignored. -/
def receive (now : Timestamp) (c : Connection) (m : Message) : Connection :=
  match c.session.handle m with
  | (some (.request r), session) => dispatch now { c with session } r
  | (_, session) => { c with session }

/-- Takes messages in one after another; `now` is the clock, read once for each of them. -/
def receiveAll (now : Nat → Timestamp) (c : Connection) (ms : List Message) : Connection :=
  ms.zipIdx.foldl (fun c (m, i) => c.receive (now i) m) c

/-! ### The stream -/

/-- The peer has hung up or sent a frame that is wrong: all registered work is signalled. -/
def close (c : Connection) : Connection :=
  { c with session := c.session.close, isOpen := false }

/-- Takes bytes in. -/
def read (now : Nat → Timestamp) (c : Connection) (bytes : List UInt8) : Connection :=
  if c.isOpen then
    let d := Frame.drain (c.buffer ++ bytes)
    let c := { c with buffer := d.rest }.receiveAll now d.messages
    if d.error.isSome then c.close else c
  else c

/-- Lets the writer go on. -/
def write (c : Connection) : Connection :=
  let (writer, session) := c.writer.serve c.session
  { c with writer, session }

/-- Whether the peer can see that nothing more will come. -/
def hasHungUp (c : Connection) : Bool :=
  !c.isOpen || c.writer.hasExited

end Connection
end Switchboard
