import Switchboard.Json.Number
import Switchboard.Text.Utf8

/-!
# Reading JSON

`Json.read` takes the bytes of a text one at a time. Between two bytes it keeps what it expects
next (`Reader.Mode`) and the arrays and objects that are still open. A text is refused as
`malformed` at the first byte that cannot stand there, and as `incomplete` if it ends too early.

At most 127 arrays and objects may be open at once. Of two members of one name the later stays. A
string must be valid UTF-8 once its escapes are resolved, which is found out at its closing
quote; four bytes must follow `\u` before they are judged; a high surrogate must be followed by
the escape of a low one.

`Reader.run_append` says that the reader may stop anywhere and go on with the rest.
-/

namespace Switchboard
namespace Json

/-- Why a text is no JSON value. -/
inductive Fault
  /-- A byte stands where it cannot stand. -/
  | malformed
  /-- The text ended too early. -/
  | incomplete
deriving DecidableEq, Repr

/-- How many arrays and objects may be open at once. -/
def maxDepth : Nat := 127

namespace Reader

/-- An open array or object around the value that is being read. -/
inductive Container
  /-- An array, with the items before the value, the last one first. -/
  | array (items : List Json)
  /-- An object, with the other members and the key of the value. -/
  | object (members : Members) (key : String)

/-- How far an escape in a string has come. -/
inductive Escape
  | none
  /-- After the backslash. -/
  | slash
  /-- After the backslash and `u`, with the digits so far, the last one first; `high` is the
  surrogate before it. -/
  | unit (high : Option Nat) (digits : List UInt8)
  /-- After a high surrogate: a backslash must follow. -/
  | pair (high : Nat)
  /-- After a high surrogate and a backslash: `u` must follow. -/
  | pairSlash (high : Nat)

/-- An open string: its bytes, the last one first, and the escape at its end. -/
structure StringText where
  content : List UInt8 := []
  escape : Escape := .none

/-- What the next byte belongs to. -/
inductive Mode
  /-- A value must follow. -/
  | value
  /-- After an opening bracket. -/
  | firstItem
  /-- After an item, the last one first. -/
  | afterItem (items : List Json)
  /-- After an opening brace. -/
  | firstKey
  /-- After a comma in an object. -/
  | nextKey (members : Members)
  /-- After a key. -/
  | colon (members : Members) (key : String)
  /-- After a member. -/
  | afterMember (members : Members)
  /-- Inside a string that is a value. -/
  | string (text : StringText)
  /-- Inside a string that is a key of an object with these other members. -/
  | key (members : Members) (text : StringText)
  | number (text : NumberText)
  /-- Inside `null`, `true` or `false`: the bytes that must follow. -/
  | word (rest : List UInt8) (v : Json)
  /-- After the whole value. -/
  | done (v : Json)

structure State where
  mode : Mode
  /-- The containers around the mode's own, the innermost first. -/
  stack : List Container

def start : State := ⟨.value, []⟩

/-- Goes on after a value. -/
def deliver (v : Json) : List Container → State
  | [] => ⟨.done v, []⟩
  | .array items :: rest => ⟨.afterItem (v :: items), rest⟩
  | .object members key :: rest => ⟨.afterMember (members.insert key v), rest⟩

/-! ### Strings -/

/-- The UTF-8 encoding of a code point. -/
def encodePoint (n : Nat) : List UInt8 :=
  Text.bytes (String.singleton (Char.ofNat n))

/-- The value of a hexadecimal digit, in either case. -/
def hexValue? (b : UInt8) : Option Nat :=
  let n := b.toNat
  if 48 ≤ n ∧ n ≤ 57 then some (n - 48)
  else if 97 ≤ n ∧ n ≤ 102 then some (n - 87)
  else if 65 ≤ n ∧ n ≤ 70 then some (n - 55)
  else none

/-- The number that four hexadecimal digits write, the last one first. -/
def hexUnit? : List UInt8 → Option Nat
  | [] => some 0
  | b :: bs =>
    match hexValue? b, hexUnit? bs with
    | some d, some n => some (n * 16 + d)
    | _, _ => Option.none

/-- What a character after a backslash stands for. -/
def escaped? (b : UInt8) : Option UInt8 :=
  match Char.ofUInt8 b with
  | '"' => some 34
  | '\\' => some 92
  | '/' => some 47
  | 'b' => some 8
  | 'f' => some 12
  | 'n' => some 10
  | 'r' => some 13
  | 't' => some 9
  | _ => Option.none

/-- A whole `\u` escape: a character, a high surrogate, or the low one after it. -/
def StringText.unit (content : List UInt8) (high : Option Nat) (n : Nat) :
    Except Fault StringText :=
  match high with
  | Option.none =>
    if 0xDC00 ≤ n ∧ n ≤ 0xDFFF then .error .malformed
    else if 0xD800 ≤ n ∧ n ≤ 0xDBFF then .ok ⟨content, .pair n⟩
    else .ok ⟨(encodePoint n).reverse ++ content, .none⟩
  | some h =>
    if 0xDC00 ≤ n ∧ n ≤ 0xDFFF then
      .ok ⟨(encodePoint ((h - 0xD800) * 1024 + (n - 0xDC00) + 0x10000)).reverse ++ content, .none⟩
    else .error .malformed

/-- Takes a byte of a string; `none` for the closing quote. -/
def StringText.push (t : StringText) (b : UInt8) : Except Fault (Option StringText) :=
  match t.escape with
  | .none =>
    if b = 34 then .ok Option.none
    else if b = 92 then .ok (some { t with escape := .slash })
    else if b < 32 then .error .malformed
    else .ok (some { t with content := b :: t.content })
  | .slash =>
    if b = 117 then .ok (some { t with escape := .unit Option.none [] })
    else
      match escaped? b with
      | some c => .ok (some ⟨c :: t.content, .none⟩)
      | Option.none => .error .malformed
  | .unit high digits =>
    if digits.length < 3 then .ok (some { t with escape := .unit high (b :: digits) })
    else
      match hexUnit? (b :: digits) with
      | some n => (StringText.unit t.content high n).map some
      | Option.none => .error .malformed
  | .pair high => if b = 92 then .ok (some { t with escape := .pairSlash high }) else .error .malformed
  | .pairSlash high =>
    if b = 117 then .ok (some { t with escape := .unit (some high) [] }) else .error .malformed

/-- The text of a closed string. -/
def StringText.close (t : StringText) : Except Fault String :=
  match Text.ofBytes? t.content.reverse with
  | some s => .ok s
  | Option.none => .error .malformed

/-! ### Bytes -/

/-- The blanks between the parts of a text. -/
def isBlank (c : Char) : Bool :=
  c = ' ' || c = '\n' || c = '\t' || c = '\r'

/-- Opens an array or object, unless too many are open. -/
def nest (mode : Mode) (stack : List Container) : Except Fault State :=
  if stack.length < maxDepth then .ok ⟨mode, stack⟩ else .error .malformed

/-- The first byte of a value. -/
def beginValue (stack : List Container) (c : Char) : Except Fault State :=
  match c with
  | 'n' => .ok ⟨.word (Text.ascii ['u', 'l', 'l']) .null, stack⟩
  | 't' => .ok ⟨.word (Text.ascii ['r', 'u', 'e']) (.bool true), stack⟩
  | 'f' => .ok ⟨.word (Text.ascii ['a', 'l', 's', 'e']) (.bool false), stack⟩
  | '"' => .ok ⟨.string {}, stack⟩
  | '[' => nest .firstItem stack
  | '\x7b' => nest .firstKey stack
  | '-' => .ok ⟨.number { part := .sign, negative := true }, stack⟩
  | _ =>
    if c.isDigit then
      .ok ⟨.number { part := if c = '0' then .zero else .integer
                     significand := c.toNat - 48 }, stack⟩
    else .error .malformed

/-- A byte that is no part of a string, number or word. -/
def between (s : State) (c : Char) : Except Fault State :=
  if isBlank c then .ok s
  else
    match s.mode with
    | .value => beginValue s.stack c
    | .firstItem =>
      if c = ']' then .ok (deliver (.arr []) s.stack) else beginValue (.array [] :: s.stack) c
    | .afterItem items =>
      if c = ',' then .ok ⟨.value, .array items :: s.stack⟩
      else if c = ']' then .ok (deliver (.arr items.reverse) s.stack)
      else .error .malformed
    | .firstKey =>
      if c = '"' then .ok ⟨.key [] {}, s.stack⟩
      else if c = '\x7d' then .ok (deliver (.obj []) s.stack)
      else .error .malformed
    | .nextKey members =>
      if c = '"' then .ok ⟨.key members {}, s.stack⟩ else .error .malformed
    | .colon members key =>
      if c = ':' then .ok ⟨.value, .object members key :: s.stack⟩ else .error .malformed
    | .afterMember members =>
      if c = ',' then .ok ⟨.nextKey members, s.stack⟩
      else if c = '\x7d' then .ok (deliver (.obj members) s.stack)
      else .error .malformed
    | .string _ | .key _ _ | .number _ | .word _ _ | .done _ => .error .malformed

/-- The value of a number that ended. -/
def endNumber (t : NumberText) : Except Fault Json :=
  match t.value? with
  | some v => .ok v
  | none => .error .malformed

/-- Takes a byte. -/
def step (s : State) (b : UInt8) : Except Fault State :=
  match s.mode with
  | .string t =>
    match t.push b with
    | .ok (some t) => .ok ⟨.string t, s.stack⟩
    | .ok none => t.close.map fun x => deliver (.str x) s.stack
    | .error e => .error e
  | .key members t =>
    match t.push b with
    | .ok (some t) => .ok ⟨.key members t, s.stack⟩
    | .ok none => t.close.map fun k => ⟨.colon members k, s.stack⟩
    | .error e => .error e
  | .number t =>
    match t.push (Char.ofUInt8 b) with
    | .more t => .ok ⟨.number t, s.stack⟩
    | .broken => .error .malformed
    | .ended =>
      match endNumber t with
      | .ok v => between (deliver v s.stack) (Char.ofUInt8 b)
      | .error e => .error e
  | .word (c :: rest) v =>
    if b = c then .ok (if rest.isEmpty then deliver v s.stack else ⟨.word rest v, s.stack⟩)
    else .error .malformed
  | _ => between s (Char.ofUInt8 b)

/-- Takes bytes up to the first that cannot stand there. -/
def run (s : State) : List UInt8 → Except Fault State
  | [] => .ok s
  | b :: bs =>
    match step s b with
    | .ok s => run s bs
    | .error e => .error e

/-- The value at the end of a text. -/
def finish (s : State) : Except Fault Json :=
  match s.mode with
  | .done v => .ok v
  | .number t =>
    if t.complete then
      match endNumber t, s.stack with
      | .ok v, [] => .ok v
      | .ok _, _ :: _ => .error .incomplete
      | .error e, _ => .error e
    else .error .incomplete
  | _ => .error .incomplete

/-- **The reader may stop anywhere:** what it does with the rest depends only on its state. -/
theorem run_append (s : State) (as bs : List UInt8) :
    run s (as ++ bs) = (run s as).bind fun t => run t bs := by
  induction as generalizing s with
  | nil => rfl
  | cons a as ih =>
    simp only [List.cons_append, run]
    cases step s a with
    | ok t => exact ih t
    | error e => rfl

end Reader

/-- The value that a text writes. -/
def read (bs : List UInt8) : Except Fault Json :=
  match Reader.run Reader.start bs with
  | .ok s => Reader.finish s
  | .error e => .error e

end Json
end Switchboard
