import Switchboard.Frame.Basic
import Switchboard.StreamFailure

/-!
# Streams of frames

A reader keeps the bytes that it has received in a buffer and takes one frame after another off it.
`Frame.drain` takes all the frames that are there, up to the first one that is wrong. `Frame.End`
says how a stream can end.
-/

namespace Switchboard
namespace Frame

/-- What was taken off a buffer. -/
structure Drained where
  messages : List Message
  /-- What is wrong with the next frame, if anything is. -/
  error : Option Error
  /-- The bytes that are left. -/
  rest : List UInt8

/-- Takes all frames off a buffer, up to the first one that is wrong. -/
def drain (buffer : List UInt8) : Drained :=
  match _h : decode buffer with
  | (.message m, rest) =>
    let d := drain rest
    { d with messages := m :: d.messages }
  | (.more, rest) => ⟨[], none, rest⟩
  | (.error e, rest) => ⟨[], some e, rest⟩
termination_by buffer.length
decreasing_by
  have lt : (decode buffer).2.length < buffer.length := length_decode_lt (congrArg Prod.fst _h)
  rw [_h] at lt
  exact lt

/-- How a stream ends. -/
inductive End
  /-- Behind a whole frame. -/
  | clean
  /-- Inside a frame. -/
  | torn
  /-- At a frame that is wrong. -/
  | broken (e : Error)

/-- What is said of a stream that ends inside a frame. -/
def tornText : String := "bytes remaining on stream"

/-- The failure that a reader reports at the end of a stream; none if the end is clean. -/
def End.failure? (words : Json.Fault → String) : End → Option StreamFailure
  | .clean => none
  | .torn => some ⟨.other, tornText⟩
  | .broken e => some ⟨.invalidData, e.text words⟩

/-- What the end of a stream holds: a message, nothing, or an end that is not clean; and what is
left. -/
def decodeEnd (buffer : List UInt8) : Except End (Option Message) × List UInt8 :=
  match decode buffer with
  | (.message m, rest) => (.ok (some m), rest)
  | (.more, rest) => (if rest.isEmpty then .ok none else .error .torn, rest)
  | (.error e, rest) => (.error (.broken e), rest)

end Frame
end Switchboard
