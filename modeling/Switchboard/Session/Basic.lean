import Switchboard.Call.Pending
import Switchboard.Cancel.Registry
import Switchboard.Deadlines
import Switchboard.Frame.Stream
import Switchboard.Session.Config

/-!
# Sessions

A `Session` is one side of a connection. It issues calls to the peer and settles each of them by
whichever comes first: an answer, its deadline, a cancellation by either side, the close of the
connection, or the refusal of the request by the transport. Every one of these takes the call off
the table of pending calls, so that later ones find nothing.

Requests of the peer are registered under the peer's identifiers. A cancellation from the peer is
for the work registered under its identifier, and only if there is none for an own call.

`Session.log` records what happens at the border of a session: which calls are issued, which
messages are handed to the transport, which calls are settled and how, and what is delivered to
those who wait. Nothing that a session does depends on it.

The transport may change its mind between two messages, also in the middle of an operation:
`Session.upcoming` says what it will be at the next messages. A sweep and the close of a session
settle several calls one after another; `Session.expireAll` and `Session.disconnectAll` do so in any
given order.
-/

namespace Switchboard

/-- Whether the transport takes messages. -/
inductive Link
  | accepting
  /-- Messages are refused, for this reason. -/
  | refusing (reason : String)
deriving DecidableEq

/-- What happens at the border of a session. -/
inductive Event
  /-- A call was issued, with a deadline or without. -/
  | issued (id : RequestId) (c : Call) (expiry : Option Nat)
  /-- The transport took a message. -/
  | sent (m : Message)
  /-- The transport refused a message, for this reason. -/
  | refused (m : Message) (reason : String)
  /-- A call ended, and its callback for this outcome runs. -/
  | settled (id : RequestId) (c : Call) (outcome : CallOutcome)
  /-- An outcome is sent to whoever waits for it. -/
  | delivered (channel : Channel) (outcome : CallOutcome)

/-- The call or request that an event is about. -/
def Event.subject? : Event → Option RequestId
  | .issued id _ _ => some id
  | .sent m | .refused m _ => m.subject?
  | .settled id _ _ => some id
  | .delivered _ _ => none

/-- The message that the transport took. -/
def Event.sent? : Event → Option Message
  | .sent m => some m
  | .issued _ _ _ | .refused _ _ | .settled _ _ _ | .delivered _ _ => none

/-- What becomes of a message that is handed to the transport. -/
def Link.carry (l : Link) (m : Message) : Event :=
  match l with
  | .accepting => .sent m
  | .refusing reason => .refused m reason

/-- The request that a call makes. -/
def CallSpec.request (spec : CallSpec) (id : RequestId) : Request :=
  ⟨id, spec.method, spec.params⟩

structure Session where
  config : SessionConfig := {}
  /-- The present instant, in milliseconds. -/
  clock : Nat := 0
  link : Link := .accepting
  /-- What the transport will be from one message to the next; then it stays as it is. -/
  upcoming : List Link := []
  ids : IdSource := {}
  pending : PendingCalls := .empty
  deadlines : Deadlines Unit := .empty
  /-- Where the outcomes of calls are waited for. -/
  replies : Channels CallOutcome := {}
  inbound : Registry := {}
  /-- What has happened so far. -/
  log : List Event := []

namespace Session

def record (s : Session) (e : Event) : Session :=
  { s with log := s.log ++ [e] }

/-- The transport as it is at the next message. -/
def turn (s : Session) : Session :=
  match s.upcoming with
  | [] => s
  | link :: upcoming => { s with link, upcoming }

/-- Hands a message to the transport. -/
def hand (s : Session) (m : Message) : Session :=
  s.turn.record (s.turn.link.carry m)

/-- From now on the transport refuses messages. -/
def refuse (s : Session) (reason : String) : Session :=
  { s with link := .refusing reason, upcoming := [] }

/-- The messages that the transport has taken, in order. -/
def sent (s : Session) : List Message :=
  s.log.filterMap Event.sent?

/-- What a call was settled with. -/
def outcome? (s : Session) (id : RequestId) : Option CallOutcome :=
  s.log.findSome? fun e =>
    match e with
    | .settled id' _ outcome => if id' = id then some outcome else none
    | _ => none

/-! ### Issuing calls -/

/-- The deadline of a call that is issued now. The clock is taken to reach every instant. -/
def expiry? (s : Session) (spec : CallSpec) : Option Nat :=
  (spec.timeout.or s.config.defaultTimeout).map fun timeout => s.clock + timeout

/-- Lets a call wait under the next identifier, and arms its deadline if it has one. -/
def enter (s : Session) (c : Call) : RequestId × Session :=
  let (id, ids) := s.ids.take
  let expiry? := s.expiry? c.spec
  (id,
    { s with
      ids
      replies := (s.pending.get? id).elim s.replies fun old => old.drop s.replies
      pending := s.pending.register id c
      deadlines := s.deadlines.armAny id expiry? () }.record
      (.issued id c expiry?))

/-- Enters a call and hands its request to the transport. -/
def launch (s : Session) (c : Call) : RequestId × Session :=
  let (id, s) := s.enter c
  (id, s.hand (.request (c.spec.request id)))

/-- Takes a call off the tables, if it is still waiting. -/
def withdraw (s : Session) (id : RequestId) : Option (Call × Session) :=
  (s.pending.complete id).map fun (c, pending) =>
    (c, { s with pending, deadlines := s.deadlines.erase id })

/-- A call has ended; what its caller does about it comes next. -/
def conclude (s : Session) (id : RequestId) (c : Call) (outcome : CallOutcome) : Session :=
  s.record (.settled id c outcome)

/-- Sends an outcome to whoever waits for it. -/
def deliver (s : Session) (channel : Channel) (outcome : CallOutcome) : Session :=
  { s with replies := s.replies.send channel outcome }.record (.delivered channel outcome)

/-- Does what a follow-up says. A call whose request is refused is settled at once, and what
follows that comes before anything else. -/
def follow : Followup → Session → Session
  | .done, s => s
  | .deliver channel outcome, s => s.deliver channel outcome
  | .call spec onResult onError next, s =>
    let c : Call := ⟨spec, onResult, onError⟩
    let (id, s) := s.launch c
    match s.link with
    | .accepting => follow next s
    | .refusing reason =>
      let error := CallError.transport reason
      match s.withdraw id with
      | some (_, s) => follow next (follow (onError error) (s.conclude id c (.error error)))
      | none => follow next s

/-- Issues a call; its identifier. -/
def issue (s : Session) (c : Call) : RequestId × Session :=
  (s.ids.take.1, s.follow (.call c.spec c.onResult c.onError .done))

/-- Issues a call that somebody waits for: where its outcome is delivered, and its identifier. -/
def call (s : Session) (spec : CallSpec) : Channel × RequestId × Session :=
  let (channel, replies) := s.replies.fresh
  let (id, s) := { s with replies }.issue (.awaited spec channel)
  (channel, id, s)

/-! ### Settling calls -/

/-- Settles a call if it is still waiting; whether it was. -/
def settle (s : Session) (id : RequestId) (outcome : CallOutcome) : Bool × Session :=
  match s.withdraw id with
  | some (c, s) => (true, (s.conclude id c outcome).follow (c.resolve outcome))
  | none => (false, s)

/-- The peer has answered. -/
def respond (s : Session) (r : Response) : Session :=
  match r.outcome with
  | .result v => (s.settle r.id (.ok v)).2
  | .failure e => (s.settle r.id (.error (.remote e))).2

/-- Settles a call and tells the peer, if it was still waiting; whether it was. -/
def abort (s : Session) (id : RequestId) (error : CallError) (reason : Option String) :
    Bool × Session :=
  match s.settle id (.error error) with
  | (true, s) => (true, s.hand (Cancellation.toMessage ⟨id, reason⟩))
  | (false, s) => (false, s)

/-- Cancels a call of this side; whether it was still waiting. -/
def cancelCall (s : Session) (id : RequestId) (reason : Option String) : Bool × Session :=
  s.abort id (.cancelled reason) reason

/-- The deadline of a call has passed. -/
def expire (s : Session) (id : RequestId) : Session :=
  (s.abort id .timeout (some "request timed out")).2

/-- The calls whose deadline has passed. -/
def overdue (s : Session) : List RequestId :=
  (s.deadlines.due s.clock).map Prod.fst

/-- Takes the deadlines off the table that have passed, and fails these calls one after another. -/
def expireAll (s : Session) (ids : List RequestId) : Session :=
  ids.foldl expire { s with deadlines := s.deadlines.notDue s.clock }

/-- Fails these calls, whose deadlines have passed; their identifiers. -/
def checkTimeoutsIn (s : Session) (order : List RequestId) : List RequestId × Session :=
  (order, s.expireAll order)

/-- Fails every call whose deadline has passed; their identifiers. -/
def checkTimeouts (s : Session) : List RequestId × Session :=
  s.checkTimeoutsIn s.overdue

/-! ### Requests of the peer -/

/-- Registers the work on a request of the peer; its handle. -/
def beginInbound (s : Session) (id : RequestId) : Handle × Session :=
  let (h, inbound) := s.inbound.fresh
  (h, { s with inbound := inbound.register id h })

/-- The work on a request has ended. -/
def finishInbound (s : Session) (id : RequestId) (h : Handle) : Session :=
  { s with inbound := (s.inbound.release id h).2 }

/-- The peer has cancelled a request. -/
def cancelled (s : Session) (c : Cancellation) : Session :=
  match s.inbound.cancel c.id c.reason with
  | (true, inbound) => { s with inbound }
  | (false, _) => (s.settle c.id (.error (.cancelled c.reason))).2

/-! ### Messages of the peer -/

/-- Takes a message in. Requests and notifications that are no cancellations are handed back. -/
def handle (s : Session) (m : Message) : Option Message × Session :=
  match m with
  | .response r => (none, s.respond r)
  | .notification n =>
    match n.cancellation? with
    | some c => (none, s.cancelled c)
    | none => (some m, s)
  | .request _ => (some m, s)

/-! ### The close of the connection -/

/-- Fails a call that was drained. -/
def disconnect (s : Session) (entry : RequestId × Call) : Session :=
  let (id, c) := entry
  let outcome : CallOutcome := .error .disconnected
  ({ s with deadlines := s.deadlines.erase id }.conclude id c outcome).follow (c.resolve outcome)

/-- Takes all calls off the table, and fails these one after another. -/
def disconnectAll (s : Session) (calls : List (RequestId × Call)) : Session :=
  calls.foldl disconnect { s with pending := .empty }

/-- Signals all registered work. -/
def cancelInbound (s : Session) : Session :=
  { s with inbound := (s.inbound.cancelAll (some "connection closed")).2 }

/-- Fails every call that is waiting and signals all registered work. -/
def close (s : Session) : Session :=
  (s.disconnectAll s.pending.drain.1).cancelInbound

end Session
end Switchboard
