import Switchboard.Json.Shape

/-!
# Request identifiers

An identifier is a 64-bit integer or a text. Identifiers of this side's own calls come from an
`IdSource`, which counts up and wraps around at `2^63`; those of a peer may be of either kind.
`RequestId.lt` orders integers before texts.
-/

namespace Switchboard

/-- What a request and the answer to it have in common. -/
inductive RequestId
  | number (n : Int64)
  | text (s : String)
deriving DecidableEq

namespace RequestId

instance : Inhabited RequestId := ⟨.number 0⟩

/-- The identifier as it is shown to a reader. -/
def display : RequestId → String
  | .number n => toString n.toInt
  | .text s => s

def isNumber : RequestId → Bool
  | .number _ => true
  | .text _ => false

def toJson : RequestId → Json
  | .number n => .int n.toInt
  | .text s => .str s

/-- An integer of 64 bits, or a string. -/
def ofJson : Shape RequestId
  | .int n =>
    if -(1 <<< 63 : Nat) ≤ n ∧ n < (1 <<< 63 : Nat) then .ok (.number (Int64.ofInt n))
    else .error (.noAlternative "RequestId")
  | .str s => .ok (.text s)
  | _ => .error (.noAlternative "RequestId")

theorem ofJson_toJson (id : RequestId) : ofJson id.toJson = .ok id := by
  cases id with
  | number n =>
    have low := Int64.le_toInt n
    have high := Int64.toInt_lt n
    simp only [toJson, ofJson, Int64.ofInt_toInt]
    rw [if_pos ⟨by omega, by omega⟩]
  | text s => rfl

/-- Integers by value before texts by their characters. -/
def lt : RequestId → RequestId → Bool
  | .number a, .number b => a < b
  | .number _, .text _ => true
  | .text _, .number _ => false
  | .text a, .text b => a < b

/-- At or before, in the order of `lt`. -/
def le (a b : RequestId) : Bool :=
  !lt b a

/-- A detailed form, for diagnosis. -/
def inspect : RequestId → String
  | .number n => s!"Number({n.toInt})"
  | .text s => s!"String({Text.quote s})"

end RequestId

/-- Hands out the identifiers of this side's calls. -/
structure IdSource where
  /-- The identifier that is handed out next. -/
  next : Int64 := 1
deriving DecidableEq

namespace IdSource

/-- The next identifier, and the source after it. -/
def take (s : IdSource) : RequestId × IdSource :=
  (.number s.next, ⟨s.next + 1⟩)

/-- The next `n` identifiers. -/
def takeMany : Nat → IdSource → List RequestId
  | 0, _ => []
  | n + 1, s => s.take.1 :: takeMany n s.take.2

end IdSource
end Switchboard
