import Switchboard.Proofs.Connection.Basic
import Switchboard.Proofs.Session.Run

/-!
# A client and its server

A `Dialogue` is a session that issues calls and a connection that serves them. What one side has
sent reaches the other in order, one message at a time: of the messages that a side has sent, a
number have arrived (`toServer`, `toClient`), and the rest are in flight.

`Dialogue.Step` is one act of either side, and `Dialogue.Run` any sequence of acts from the start
on. Work on the server ends in any order and with any outcome. `produced` lists the outcomes, each
with the request that it is for.
-/

namespace Switchboard

/-- Whether the owner of a session does this, or what is around it. -/
def Action.isOwn : Action → Bool
  | issue _ | call _ | cancelCall _ _ | checkTimeouts | close | wait _ | relink _ _ => true
  | respond _ | cancelled _ | beginInbound _ | finishInbound _ _ | handle _ => false

structure Dialogue where
  client : Session
  server : Connection
  /-- How many messages of the client have reached the server. -/
  toServer : Nat := 0
  /-- How many messages of the server have reached the client. -/
  toClient : Nat := 0
  /-- The outcomes on the server, each with its request. -/
  produced : List (Request × Outcome) := []

/-- What happens in a dialogue. -/
inductive Act
  | client (a : Action)
  /-- The next message of the client reaches the server. -/
  | serve (now : Timestamp)
  /-- The next message of the server reaches the client. -/
  | answer
  /-- A piece of work ends. -/
  | complete (w : Work) (outcome : Outcome)
  /-- A piece of work is given up. -/
  | abandon (w : Work)
  /-- Somebody changes the task store. -/
  | retask (change : TaskStore → TaskStore)
  /-- The server's transport is, and will be at the next messages, as said. -/
  | relink (link : Link) (upcoming : List Link)
  /-- The server closes. -/
  | close

namespace Dialogue

/-- A dialogue in which nothing has happened yet. -/
def start (clientConfig serverConfig : SessionConfig) (tasks : Option TaskStore) : Dialogue where
  client := { config := clientConfig }
  server := { session := { config := serverConfig }, tasks }

/-- The messages that have reached the server. -/
def received (d : Dialogue) : List Message :=
  d.client.sent.take d.toServer

/-- The messages on their way to the server. -/
def upstream (d : Dialogue) : List Message :=
  d.client.sent.drop d.toServer

/-- What becomes of a dialogue by an act. -/
inductive Step (d : Dialogue) : Act → Dialogue → Prop
  | client {a : Action} {s : Session} (own : a.isOwn = true) (step : Session.Step d.client a s) :
      Step d (.client a) { d with client := s }
  | serve {m : Message} (now : Timestamp) (next : d.client.sent[d.toServer]? = some m)
      (isOpen : d.server.isOpen = true) :
      Step d (.serve now)
        { d with
          server := d.server.receive now m
          toServer := d.toServer + 1
          produced := d.produced ++ d.server.atOnce now m }
  | answer {m : Message} (next : d.server.session.sent[d.toClient]? = some m) :
      Step d .answer { d with client := (d.client.handle m).2, toClient := d.toClient + 1 }
  | complete {w : Work} (outcome : Outcome) (running : w ∈ d.server.running) :
      Step d (.complete w outcome)
        { d with
          server := d.server.complete w outcome
          produced := d.produced ++ [(w.request, outcome)] }
  | abandon {w : Work} (running : w ∈ d.server.running)
      (fired : (d.server.session.inbound.signal w.handle).isFired = true) :
      Step d (.abandon w) { d with server := d.server.abandon w }
  | retask (change : TaskStore → TaskStore) :
      Step d (.retask change)
        { d with server := { d.server with tasks := d.server.tasks.map change } }
  | relink (link : Link) (upcoming : List Link) :
      Step d (.relink link upcoming)
        { d with
          server := { d.server with session := { d.server.session with link, upcoming } } }
  | close : Step d .close { d with server := d.server.close }

/-- Work that goes on ends, or is given up, or the handler has no outcome yet. -/
theorem advance_eq_or_step (d : Dialogue) (handler : Handler) {w : Work}
    (hw : w ∈ d.server.running) :
    d.server.advance handler w = d.server ∨
      ∃ act d', Step d act d' ∧ d'.server = d.server.advance handler w := by
  rw [Connection.advance]
  split
  · rename_i fired
    exact .inr ⟨_, _, .abandon hw fired, rfl⟩
  · cases handler w.request with
    | none => exact .inl rfl
    | some outcome => exact .inr ⟨_, _, .complete outcome hw, rfl⟩

/-- A sequence of acts. -/
inductive Run (d₀ : Dialogue) : List Act → Dialogue → Prop
  | start : Run d₀ [] d₀
  | step {acts : List Act} {d d' : Dialogue} {act : Act} (run : Run d₀ acts d)
      (step : Step d act d') : Run d₀ (acts ++ [act]) d'

end Dialogue
end Switchboard
