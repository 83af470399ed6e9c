import Switchboard.Proofs.Connection.Basic
import Switchboard.Proofs.Session.Wire

/-!
# A server under any order of events

A `Serving` is a connection that serves requests, with a record of them. A request is known by its
place among all that have arrived, because the peer may use an identifier again.

`Serving.Step` is one event: a message arrives, a handler comes to an outcome, a piece of work is
asked for it, somebody fires a signal. A handler that has come to an outcome has not been asked for
it yet. When it is asked and its signal has fired as well, either of the two may be taken.
-/

namespace Switchboard

/-- A request that has arrived. -/
inductive Arrival
  /-- It was answered at once. -/
  | answered (r : Request) (outcome : Outcome)
  /-- Work began, under a handle of its own. -/
  | begun (w : Work)

def Arrival.request : Arrival → Request
  | answered r _ => r
  | begun w => w.request

/-- A response that has been handed to the transport. -/
structure Answer where
  /-- The place of the request that it answers among all that have arrived. -/
  place : Nat
  response : Response

/-- How a connection receives a request. -/
def Connection.arrival (now : Timestamp) (c : Connection) (r : Request) : Arrival :=
  match c.tasks.bind fun store => store.answer? now r with
  | some (outcome, _) => .answered r outcome
  | none => .begun ⟨r, (c.session.beginInbound r.id).1⟩

/-- A connection that serves requests, and what has happened to them. -/
structure Serving where
  server : Connection
  arrivals : List Arrival := []
  /-- What handlers have come to, each with the handle that it works under. -/
  outcomes : List (Handle × Outcome) := []
  answers : List Answer := []

namespace Serving

/-- A connection on which nothing has happened yet. -/
def start (config : SessionConfig) (tasks : Option TaskStore) : Serving where
  server := { session := { config }, tasks }

/-- The registered work. -/
def inbound (st : Serving) : Registry :=
  st.server.session.inbound

/-- Whether the signal behind a handle has fired. -/
def IsFired (st : Serving) (h : Handle) : Prop :=
  (st.inbound.signal h).isFired = true

/-- The responses to the request at a place. -/
def answersTo (st : Serving) (n : Nat) : List Response :=
  (st.answers.filter fun a => a.place = n).map Answer.response

/-- A message arrives. -/
def receive (now : Timestamp) (m : Message) (st : Serving) : Serving :=
  { st with
    server := st.server.receive now m
    arrivals := st.arrivals ++ (m.request?.map (st.server.arrival now)).toList
    answers := st.answers ++
      (st.server.atOnce now m).map fun p => ⟨st.arrivals.length, p.1.id, p.2⟩ }

/-- The work for the request at a place ends with an outcome. -/
def finish (n : Nat) (w : Work) (outcome : Outcome) (st : Serving) : Serving :=
  { st with
    server := st.server.complete w outcome
    answers := st.answers ++ [⟨n, w.request.id, outcome⟩] }

/-- What happens on a connection that is not closed. -/
inductive Act
  | receive (now : Timestamp) (m : Message)
  /-- The handler of a piece of work comes to an outcome. -/
  | ready (w : Work) (outcome : Outcome)
  /-- A piece of work is asked for its outcome. -/
  | poll (w : Work)
  /-- Somebody who holds a handle fires its signal. -/
  | fire (h : Handle) (reason : Option String)
  /-- Somebody changes the task store. -/
  | retask (change : TaskStore → TaskStore)
  /-- The transport is, and will be at the next messages, as said. -/
  | relink (link : Link) (upcoming : List Link)
  /-- The writer goes on. -/
  | write

/-- The request that arrives. -/
def Act.request? : Act → Option Request
  | receive _ m => m.request?
  | ready _ _ | poll _ | fire _ _ | retask _ | relink _ _ | write => none

/-- What becomes of a connection by an event. -/
inductive Step (st : Serving) : Act → Serving → Prop
  | receive (now : Timestamp) (m : Message) : Step st (.receive now m) (st.receive now m)
  | ready {w : Work} (outcome : Outcome) (running : w ∈ st.server.running)
      (first : ∀ o, (w.handle, o) ∉ st.outcomes) :
      Step st (.ready w outcome) { st with outcomes := st.outcomes ++ [(w.handle, outcome)] }
  | finish {w : Work} {n : Nat} {outcome : Outcome} (running : w ∈ st.server.running)
      (place : st.arrivals[n]? = some (.begun w))
      (ready : (w.handle, outcome) ∈ st.outcomes) : Step st (.poll w) (st.finish n w outcome)
  | drop {w : Work} (running : w ∈ st.server.running) (fired : st.IsFired w.handle) :
      Step st (.poll w) { st with server := st.server.abandon w }
  | idle {w : Work} (running : w ∈ st.server.running) (quiet : ¬ st.IsFired w.handle)
      (busy : ∀ o, (w.handle, o) ∉ st.outcomes) : Step st (.poll w) st
  | fire (h : Handle) (reason : Option String) :
      Step st (.fire h reason)
        { st with
          server.session.inbound := st.inbound.fire h reason }
  | retask (change : TaskStore → TaskStore) :
      Step st (.retask change) { st with server.tasks := st.server.tasks.map change }
  | relink (link : Link) (upcoming : List Link) :
      Step st (.relink link upcoming)
        { st with
          server.session.link := link
          server.session.upcoming := upcoming }
  | write : Step st .write { st with server := st.server.write }

/-- A sequence of events. -/
inductive Run (st₀ : Serving) : List Act → Serving → Prop
  | start : Run st₀ [] st₀
  | step {acts : List Act} {st st' : Serving} {act : Act} (run : Run st₀ acts st)
      (step : Step st act st') : Run st₀ (acts ++ [act]) st'

end Serving
end Switchboard
