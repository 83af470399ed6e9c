import Switchboard.Session.Basic

/-!
# The reader of a session

A session takes in the messages of a stream that arrives in chunks. The reader keeps the bytes in a
buffer; whenever a whole frame is there, it hands the message to the session before it looks at the
next one. It stops at the end of the stream, or for good at the first frame that is wrong.

What the session hands back goes to somebody else, who may use the session as well.
-/

namespace Switchboard
namespace Session

variable {α : Type}

/-- Takes a message in; `unhandled` gets it if the session hands it back. -/
def feed (unhandled : Message → Session × α → Session × α) (state : Session × α) (m : Message) :
    Session × α :=
  match state.1.handle m with
  | (some m, s) => unhandled m (s, state.2)
  | (none, s) => (s, state.2)

/-- Takes the messages of a buffer in, and of the chunks that are still to come; how the stream
ends. -/
def listen (unhandled : Message → Session × α → Session × α) (buffer : List UInt8)
    (chunks : List (List UInt8)) (state : Session × α) : Frame.End × Session × α :=
  match _h : Frame.decode buffer with
  | (.message m, rest) => listen unhandled rest chunks (feed unhandled state m)
  | (.error e, _) => (.broken e, state)
  | (.more, rest) =>
    match chunks with
    | [] => (if rest.isEmpty then .clean else .torn, state)
    | chunk :: chunks => listen unhandled (rest ++ chunk) chunks state
termination_by (chunks.length, buffer.length)
decreasing_by
  · have lt : (Frame.decode buffer).2.length < buffer.length :=
      Frame.length_decode_lt (congrArg Prod.fst _h)
    rw [_h] at lt
    exact .right _ lt
  · exact .left _ _ (Nat.lt_succ_self _)

/-- Takes the messages of a stream in: how it ends, and the messages handed back. -/
def read (s : Session) (chunks : List (List UInt8)) : Frame.End × Session × List Message :=
  listen (fun m (s, back) => (s, back ++ [m])) [] chunks (s, [])

end Session
end Switchboard
