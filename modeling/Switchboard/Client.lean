import Switchboard.Session.Future
import Switchboard.Writer

/-!
# Being a client

A `Client` issues calls over a connection. It has no methods of its own: it rejects the peer's
requests and ignores the peer's notifications. When the peer hangs up or sends a frame that is
wrong, every call fails that is still waiting. A message that is too large for a frame ends the
writer: calls that are waiting may still be answered, but no more can be issued.
-/

namespace Switchboard

structure Client where
  session : Session
  /-- Puts on the stream what the session sends. -/
  writer : Writer := {}
  /-- The bytes received that are no whole frame yet. -/
  buffer : List UInt8 := []
  /-- Whether messages are still taken in. -/
  isReading : Bool := true

namespace Client

/-- Takes a message in. -/
def receive (c : Client) (m : Message) : Client :=
  match c.session.handle m with
  | (some (.request r), session) =>
    { c with
      session := session.hand (.response ⟨r.id, .failure (.methodNotFound r.method)⟩) }
  | (_, session) => { c with session }

/-- Nothing more is taken in. -/
def stopReading (c : Client) : Client :=
  { c with isReading := false, session := c.session.close }

/-- Takes bytes in. -/
def read (c : Client) (bytes : List UInt8) : Client :=
  if c.isReading then
    let d := Frame.drain (c.buffer ++ bytes)
    let c := d.messages.foldl receive { c with buffer := d.rest }
    if d.error.isSome then c.stopReading else c
  else c

/-- Lets the writer go on. -/
def write (c : Client) : Client :=
  let (writer, session) := c.writer.serve c.session
  { c with writer, session }

/-- Ends the connection. What has been sent so far is still written; a session that somebody holds
on to cannot send any more. -/
def shutdown (c : Client) : Client :=
  let c := c.stopReading.write
  { c with session := c.session.refuse Writer.goneText }

end Client
end Switchboard
