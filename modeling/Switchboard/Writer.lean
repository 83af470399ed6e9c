import Switchboard.Session.Basic

/-!
# The writer of a connection

Messages wait in a queue until a writer puts their frames on the stream. A stream may take only so
many bytes and then fail. The writer exits at the first message that is too large for a frame or
that the stream does not take as a whole; what is in the queue behind it is lost, and nothing more
can be queued.

`Writer.serve` is the writer of a session: the session learns of the exit when a message is refused.
-/

namespace Switchboard

structure Writer where
  /-- How many more bytes the stream takes; none if there is no end to them. -/
  room : Option Nat := none
  queue : List Message := []
  /-- How many messages have been queued so far. -/
  accepted : Nat := 0
  written : List UInt8 := []
  hasExited : Bool := false

namespace Writer

/-- Why messages are refused once the writer has exited. -/
def goneText : String := "connection writer has exited"

/-- How a message is refused once the writer has exited. -/
def gone : StreamFailure := ⟨.brokenPipe, goneText⟩

/-- Queues a message, unless the writer has exited. -/
def send (w : Writer) (m : Message) : Except StreamFailure Writer :=
  if w.hasExited then .error gone
  else .ok { w with queue := w.queue ++ [m], accepted := w.accepted + 1 }

/-- Queues messages one after another: what came of each of them. -/
def sendAll : List Message → Writer → List (Except StreamFailure Unit) × Writer
  | [], w => ([], w)
  | m :: ms, w =>
    match w.send m with
    | .ok w => let (rest, w) := sendAll ms w; (.ok () :: rest, w)
    | .error why => let (rest, w) := sendAll ms w; (.error why :: rest, w)

/-- Puts one message on the stream: its frame, as far as the stream takes it. The writer exits if
the message has no frame, or if the stream does not take all of it. -/
def put (w : Writer) (m : Message) : Writer :=
  match Frame.encode m with
  | .ok frame =>
    { w with
      room := w.room.map fun n => n - frame.length
      written := w.written ++ w.room.elim frame fun n => frame.take n
      hasExited := w.room.any fun n => n < frame.length }
  | .error _ => { w with hasExited := true }

/-- Puts messages on the stream one after another, until the writer exits. -/
def putAll : List Message → Writer → Writer
  | [], w => w
  | m :: ms, w => if w.hasExited then w else putAll ms (w.put m)

/-- Puts the queue on the stream. What is left of it when the writer exits is lost. -/
def flush (w : Writer) : Writer :=
  { putAll w.queue w with queue := [] }

/-- Writes what a session has sent since the last time. Once the writer has exited, the session's
messages are refused. -/
def serve (w : Writer) (s : Session) : Writer × Session :=
  let ms := s.sent.drop w.accepted
  let w := { w with queue := w.queue ++ ms, accepted := w.accepted + ms.length }.flush
  (w, if w.hasExited then s.refuse goneText else s)

end Writer
end Switchboard
