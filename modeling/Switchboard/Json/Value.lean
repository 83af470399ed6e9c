/-!
# JSON values

A number written without fraction and exponent is an integer, every other number is a binary64
double, kept as its bits so that values can be compared. The members of an object are listed in
the order of their keys, each key once: `Members.insert` keeps that order, and
`Json.object` builds an object from members in any order.

`Json.Canonical` says what every value that the reader delivers satisfies: integers between
`-2^63` and `2^64 - 1`, finite doubles, and sorted members.
-/

namespace Switchboard

/-- A binary64 number, as its bits. -/
structure Double where
  bits : UInt64
deriving DecidableEq

namespace Double

/-- Neither an infinity nor a NaN: the exponent field is not all ones. -/
def isFinite (d : Double) : Bool :=
  (d.bits >>> 52) &&& 0x7FF != 0x7FF

def ofFloat (x : Float) : Double := ⟨x.toBits⟩

end Double

/-- A JSON value. -/
inductive Json
  | null
  | bool (b : Bool)
  | int (n : Int)
  | float (d : Double)
  | str (s : String)
  | arr (items : List Json)
  | obj (members : List (String × Json))

namespace Json

instance : Inhabited Json := ⟨.null⟩

/-- The members of an object. -/
abbrev Members := List (String × Json)

mutual

/-- Equality of values is decidable. -/
def decEq : (v w : Json) → Decidable (v = w)
  | .null, .null => isTrue rfl
  | .bool a, .bool b => decidable_of_iff (a = b) (by simp)
  | .int a, .int b => decidable_of_iff (a = b) (by simp)
  | .float a, .float b => decidable_of_iff (a = b) (by simp)
  | .str a, .str b => decidable_of_iff (a = b) (by simp)
  | .arr a, .arr b => @decidable_of_iff _ (a = b) (by simp) (decEqItems a b)
  | .obj a, .obj b => @decidable_of_iff _ (a = b) (by simp) (decEqMembers a b)
  | .null, .bool _ | .null, .int _ | .null, .float _ | .null, .str _ | .null, .arr _
  | .null, .obj _ => isFalse nofun
  | .bool _, .null | .bool _, .int _ | .bool _, .float _ | .bool _, .str _ | .bool _, .arr _
  | .bool _, .obj _ => isFalse nofun
  | .int _, .null | .int _, .bool _ | .int _, .float _ | .int _, .str _ | .int _, .arr _
  | .int _, .obj _ => isFalse nofun
  | .float _, .null | .float _, .bool _ | .float _, .int _ | .float _, .str _ | .float _, .arr _
  | .float _, .obj _ => isFalse nofun
  | .str _, .null | .str _, .bool _ | .str _, .int _ | .str _, .float _ | .str _, .arr _
  | .str _, .obj _ => isFalse nofun
  | .arr _, .null | .arr _, .bool _ | .arr _, .int _ | .arr _, .float _ | .arr _, .str _
  | .arr _, .obj _ => isFalse nofun
  | .obj _, .null | .obj _, .bool _ | .obj _, .int _ | .obj _, .float _ | .obj _, .str _
  | .obj _, .arr _ => isFalse nofun

/-- Equality of items is decidable. -/
def decEqItems : (vs ws : List Json) → Decidable (vs = ws)
  | [], [] => isTrue rfl
  | [], _ :: _ => isFalse nofun
  | _ :: _, [] => isFalse nofun
  | v :: vs, w :: ws =>
    match decEq v w, decEqItems vs ws with
    | isTrue h, isTrue hs => isTrue (by rw [h, hs])
    | isFalse h, _ => isFalse fun e => h (List.cons.inj e).1
    | _, isFalse hs => isFalse fun e => hs (List.cons.inj e).2

/-- Equality of members is decidable. -/
def decEqMembers : (ms ns : List (String × Json)) → Decidable (ms = ns)
  | [], [] => isTrue rfl
  | [], _ :: _ => isFalse nofun
  | _ :: _, [] => isFalse nofun
  | (k, v) :: ms, (l, w) :: ns =>
    if hk : k = l then
      match decEq v w, decEqMembers ms ns with
      | isTrue h, isTrue hs => isTrue (by rw [hk, h, hs])
      | isFalse h, _ => isFalse fun e => h (Prod.mk.inj (List.cons.inj e).1).2
      | _, isFalse hs => isFalse fun e => hs (List.cons.inj e).2
    else isFalse fun e => hk (Prod.mk.inj (List.cons.inj e).1).1

end

instance : DecidableEq Json := decEq

/-! ### Members -/

namespace Members

/-- Sets the value of a key, at the key's place in the order. -/
def insert (k : String) (v : Json) : Members → Members
  | [] => [(k, v)]
  | (l, w) :: ms =>
    if k = l then (k, v) :: ms
    else if k < l then (k, v) :: (l, w) :: ms
    else (l, w) :: insert k v ms

/-- The value of a key. -/
def get? (k : String) : Members → Option Json
  | [] => none
  | (l, w) :: ms => if k = l then some w else get? k ms

/-- Every key is below all keys after it. -/
def Sorted (ms : Members) : Prop :=
  ms.Pairwise fun a b => a.1 < b.1

/-- Members in any order; of two with one key the later stays. -/
def ofList (ms : List (String × Json)) : Members :=
  ms.foldl (fun acc m => acc.insert m.1 m.2) []

end Members

/-- The object with these members, given in any order. -/
def object (ms : List (String × Json)) : Json :=
  .obj (Members.ofList ms)

/-- The value of a member, if the value is an object that has one of that name. -/
def member? (k : String) : Json → Option Json
  | .obj ms => Members.get? k ms
  | _ => none

/-! ### Depth and canonical values -/

mutual

/-- How many arrays and objects lie around the innermost value, its own brackets included. -/
def depth : Json → Nat
  | .arr items => depthItems items + 1
  | .obj members => depthMembers members + 1
  | _ => 0

/-- The greatest depth among items. -/
def depthItems : List Json → Nat
  | [] => 0
  | v :: vs => max (depth v) (depthItems vs)

/-- The greatest depth among members. -/
def depthMembers : List (String × Json) → Nat
  | [] => 0
  | (_, v) :: ms => max (depth v) (depthMembers ms)

end

/-- The integers that stay integers: from `-2^63` to `2^64 - 1`. -/
def inRange (n : Int) : Prop :=
  -(1 <<< 63 : Nat) ≤ n ∧ n < (1 <<< 64 : Nat)

mutual

/-- A value as the reader delivers it. -/
def Canonical : Json → Prop
  | .int n => inRange n
  | .float d => d.isFinite = true
  | .arr items => CanonicalItems items
  | .obj members => Members.Sorted members ∧ CanonicalMembers members
  | _ => True

/-- All items are canonical. -/
def CanonicalItems : List Json → Prop
  | [] => True
  | v :: vs => Canonical v ∧ CanonicalItems vs

/-- All members are canonical. -/
def CanonicalMembers : List (String × Json) → Prop
  | [] => True
  | (_, v) :: ms => Canonical v ∧ CanonicalMembers ms

end

end Json
end Switchboard
