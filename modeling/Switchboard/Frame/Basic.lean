import Switchboard.Frame.Checksum
import Switchboard.Json.Printer
import Switchboard.Message.Reader

/-!
# Frames

On a byte stream every message travels in a frame:

| bytes | content |
| ---: | --- |
| 1 | version, always 1 |
| 1 | type of the payload, always 1: a JSON text |
| 4 | checksum of the payload, high byte first |
| 4 | length of the payload, high byte first |
| … | payload, at most 16 MiB |

`Frame.encode` writes a message. `Frame.decode` takes the first frame off a buffer: it leaves the
buffer alone while the frame is not there as a whole or its header is wrong, and takes the whole
frame off once it has been seen, even if the checksum or the message turns out to be wrong.
-/

namespace Switchboard

/-- The text of a number in hexadecimal with at least four digits. -/
def hexText (n : Nat) : String :=
  let digits := Nat.toDigits 16 n
  "0x" ++ String.ofList (List.replicate (4 - digits.length) '0' ++ digits)

namespace Frame

/-- What is wrong with a frame. -/
inductive Error
  | version (n : UInt8)
  | payloadType (n : UInt8)
  | tooLarge (length : Nat)
  | checksum (stated : Nat) (calculated : Nat)
  | message (e : Message.Error)

/-- The error in words; `words` is what the reader of JSON says of a text that is none. -/
def Error.text (words : Json.Fault → String) : Error → String
  | .version n => s!"unsupported frame version {n}"
  | .payloadType n => s!"unknown payload type {n}"
  | .tooLarge n => s!"payload of {n} bytes exceeds the frame limit"
  | .checksum stated calculated =>
    s!"calculated CRC {hexText calculated} does not match frame CRC {hexText stated}"
  | .message (.text fault) => s!"payload is not valid JSON: {words fault}"
  | .message (.shape e) => s!"payload is not valid JSON: {e.message}"
  | .message (.defect d) => s!"invalid JSON-RPC message: {d.message}"

def headerSize : Nat := 10

def version : UInt8 := 1

/-- The payload type of a JSON text. -/
def jsonType : UInt8 := 1

/-- The largest payload, in bytes. -/
def maxPayload : Nat := 16 * 1024 * 1024

/-! ### Header -/

/-- Four bytes, high byte first. -/
def word (n : Nat) : List UInt8 :=
  [UInt8.ofNat (n >>> 24), UInt8.ofNat (n >>> 16), UInt8.ofNat (n >>> 8), UInt8.ofNat n]

/-- The number that bytes write, high byte first. -/
def ofWord (bs : List UInt8) : Nat :=
  bs.foldl (fun n b => n * 256 + b.toNat) 0

theorem ofWord_word {n : Nat} (h : n < 1 <<< 32) : ofWord (word n) = n := by
  simp only [ofWord, word, List.foldl, UInt8.toNat_ofNat']
  omega

/-- The header of a payload. -/
def header (payload : List UInt8) : List UInt8 :=
  version :: jsonType :: (word (Checksum.ofBytes payload).toNat ++ word payload.length)

theorem length_header (payload : List UInt8) : (header payload).length = headerSize := rfl

/-! ### Encoding -/

/-- The frame of a message. -/
def encode (m : Message) : Except Error (List UInt8) :=
  let payload := m.toJson.bytes
  if payload.length ≤ maxPayload then .ok (header payload ++ payload)
  else .error (.tooLarge payload.length)

/-- Appends the frame of a message to a buffer. A message that has none leaves the buffer as it
is. -/
def append (buffer : List UInt8) (m : Message) : Except Error Unit × List UInt8 :=
  match encode m with
  | .ok frame => (.ok (), buffer ++ frame)
  | .error e => (.error e, buffer)

/-- Appends the frames of messages one after another: what came of each of them, and the buffer. -/
def appendAll : List Message → List UInt8 → List (Except Error Unit) × List UInt8
  | [], buffer => ([], buffer)
  | m :: ms, buffer =>
    let (result, buffer) := append buffer m
    let (results, buffer) := appendAll ms buffer
    (result :: results, buffer)

/-! ### Decoding -/

/-- What the front of a buffer holds. -/
inductive Decoded
  /-- Not a whole frame yet. -/
  | more
  | message (m : Message)
  | error (e : Error)

/-- The message of a whole frame. -/
def ofPayload (stated : Nat) (payload : List UInt8) : Decoded :=
  let calculated := (Checksum.ofBytes payload).toNat
  if calculated = stated then
    match Message.parse payload with
    | .ok m => .message m
    | .error e => .error (.message e)
  else .error (.checksum stated calculated)

/-- Takes the first frame off a buffer: what it holds, and what is left. -/
def decode (buffer : List UInt8) : Decoded × List UInt8 :=
  match buffer with
  | v :: t :: c₁ :: c₂ :: c₃ :: c₄ :: n₁ :: n₂ :: n₃ :: n₄ :: body =>
    if v ≠ version then (.error (.version v), buffer)
    else if t ≠ jsonType then (.error (.payloadType t), buffer)
    else
      let length := ofWord [n₁, n₂, n₃, n₄]
      let payload := body.take length
      if maxPayload < length then (.error (.tooLarge length), buffer)
      else if payload.length < length then (.more, buffer)
      else (ofPayload (ofWord [c₁, c₂, c₃, c₄]) payload, body.drop length)
  | _ => (.more, buffer)

/-- A frame that is taken off leaves less. -/
theorem length_decode_lt {buffer : List UInt8} {m : Message} (h : (decode buffer).1 = .message m) :
    (decode buffer).2.length < buffer.length := by
  revert h
  unfold decode
  split
  · split
    · simp
    · split
      · simp
      · dsimp only
        split
        · simp
        · split
          · simp
          · intro _
            simp only [List.length_drop, List.length_cons]
            omega
  · simp

end Frame
end Switchboard
