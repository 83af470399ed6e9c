import Switchboard.Json.Number
import Switchboard.Text.Quoted

/-!
# Shapes of JSON values

A reader of type `Shape α` takes a JSON value to an `α`, or says with a `ShapeError` what it found
in place of what it wanted. A record is read from an object, by the names of its fields, or from
an array, by their positions; `Record.read` visits the members of an object in the order of their
keys, so the first faulty one in that order is reported, and a missing field only after that.
Members that no field names are ignored.
-/

namespace Switchboard
namespace Json

/-- What a shape error says about the value that was found. -/
def found : Json → String
  | .null => "null"
  | .bool b => s!"boolean \x60{b}\x60"
  | .int n => s!"integer \x60{n}\x60"
  | .float d => s!"floating point \x60{d.text}\x60"
  | .str s => s!"string {Text.quote s}"
  | .arr _ => "sequence"
  | .obj _ => "map"

end Json

/-- Why a value does not have the shape that was wanted. -/
inductive ShapeError
  /-- A value of another kind. -/
  | wrongType (v : Json) (wanted : String)
  /-- A value of the right kind outside its range. -/
  | wrongValue (v : Json) (wanted : String)
  /-- An array of another length. -/
  | wrongLength (length : Nat) (wanted : String)
  | missingField (name : String)
  /-- A name that is none of the known ones. -/
  | unknownVariant (name : String) (known : List String)
  /-- A value that fits none of the alternatives of a type. -/
  | noAlternative (type : String)
  /-- A text of the right kind that breaks a rule of its own. -/
  | malformedText (reason : String)

namespace ShapeError

/-- The known names of a variant, for a message. -/
def knownNames (known : List String) : String :=
  let quoted := known.map fun name => s!"\x60{name}\x60"
  match quoted with
  | [a, b] => s!"{a} or {b}"
  | [a] => a
  | _ => "one of " ++ String.intercalate ", " quoted

def message : ShapeError → String
  | .wrongType v wanted => s!"invalid type: {v.found}, expected {wanted}"
  | .wrongValue v wanted => s!"invalid value: {v.found}, expected {wanted}"
  | .wrongLength n wanted => s!"invalid length {n}, expected {wanted}"
  | .missingField name => s!"missing field \x60{name}\x60"
  | .unknownVariant name known => s!"unknown variant \x60{name}\x60, expected {knownNames known}"
  | .noAlternative type => s!"data did not match any variant of untagged enum {type}"
  | .malformedText reason => reason

end ShapeError

/-- Reads a value of type `α`. -/
abbrev Shape (α : Type) := Json → Except ShapeError α

namespace Shape

def text : Shape String
  | .str s => .ok s
  | v => .error (.wrongType v "a string")

/-- An integer from `low` to `high`. -/
def integer (name : String) (low high : Int) : Shape Int
  | .int n => if low ≤ n ∧ n ≤ high then .ok n else .error (.wrongValue (.int n) name)
  | v => .error (.wrongType v name)

def int64 : Shape Int := integer "i64" Int64.minValue.toInt Int64.maxValue.toInt

def natural (name : String) (bits : Nat) : Shape Nat := fun v =>
  (integer name 0 ((1 <<< bits : Nat) - 1) v).map Int.toNat

def nat64 : Shape Nat := natural "u64" 64

def nat32 : Shape Nat := natural "u32" 32

/-- A size or count of 64 bits. -/
def size : Shape Nat := natural "usize" 64

/-- Any value. -/
def any : Shape Json := .ok

/-- The value if it is there and not `null`. -/
def nullable {α : Type} (shape : Shape α) : Shape (Option α)
  | .null => .ok none
  | v => (shape v).map some

def list {α : Type} (shape : Shape α) : Shape (List α)
  | .arr items => items.mapM shape
  | v => .error (.wrongType v "a sequence")

/-- One of several names, each for a value. A name may also be the only key of an object, whose
member is then `null`. -/
def variant {α : Type} (names : List (String × α)) : Shape α := fun v =>
  let pick (name : String) : Except ShapeError α :=
    match names.find? (·.1 = name) with
    | some (_, a) => .ok a
    | none => .error (.unknownVariant name (names.map (·.1)))
  match v with
  | .str name => pick name
  | .obj [(name, .null)] => pick name
  | .obj [(name, inner)] =>
    match pick name with
    | .ok _ => .error (.wrongType inner "unit")
    | .error e => .error e
  | .obj _ => .error (.wrongValue v "map with a single key")
  | _ => .error (.wrongType v "string or map")

end Shape

/-! ### Records -/

/-- How a record's field is found. -/
structure Field where
  name : String
  /-- An object may lack it. -/
  optional : Bool
  /-- An array may end before it. -/
  trailing : Bool
  /-- What is wrong with its value, if anything. -/
  check : Shape Unit

/-- A record: its fields, and how it is built from their values. -/
structure Record (α : Type) where
  fields : List Field
  build : (String → Option Json) → Except ShapeError α

namespace Record

/-- A field that must be there. -/
def required {α : Type} (name : String) (shape : Shape α) : Record α where
  fields := [⟨name, false, false, fun v => (shape v).map fun _ => ()⟩]
  build get :=
    match get name with
    | some v => shape v
    | none => .error (.missingField name)

/-- A field with a default. -/
def withDefault {α : Type} (name : String) (default : α) (shape : Shape α) : Record α where
  fields := [⟨name, true, true, fun v => (shape v).map fun _ => ()⟩]
  build get :=
    match get name with
    | some v => shape v
    | none => .ok default

/-- A field that may be left out or `null`. -/
def optional {α : Type} (name : String) (shape : Shape α) : Record (Option α) :=
  withDefault name none (Shape.nullable shape)

/-- A field that an object may leave out, though an array may not. -/
def optionalMember {α : Type} (name : String) (shape : Shape α) : Record (Option α) :=
  { optional name shape with
    fields := [⟨name, true, false, fun v => (Shape.nullable shape v).map fun _ => ()⟩] }

/-- A record of one more field. -/
def andThen {α β : Type} (f : Record (α → β)) (x : Record α) : Record β where
  fields := f.fields ++ x.fields
  build get :=
    match f.build get, x.build get with
    | .ok g, .ok a => .ok (g a)
    | .error e, _ => .error e
    | .ok _, .error e => .error e

/-- A record without fields yet. -/
def of {α : Type} (a : α) : Record α := ⟨[], fun _ => .ok a⟩

/-- The members of an object, each checked by the field of its name. -/
def checkMembers (fields : List Field) : Json.Members → Except ShapeError Unit
  | [] => .ok ()
  | (k, v) :: ms =>
    match fields.find? (·.name = k) with
    | none => checkMembers fields ms
    | some f =>
      match f.check v with
      | .ok _ => checkMembers fields ms
      | .error e => .error e

/-- The items of an array, each checked by the field at its place, the first of which has the
number `at_`. The type's name and number of fields are for the message. -/
def checkItems (wanted : String) (length : Nat) :
    Nat → List Field → List Json → Except ShapeError Unit
  | _, [], [] => .ok ()
  | _, [], _ :: _ => .error (.wrongLength length "fewer elements in array")
  | i, f :: fs, [] =>
    if f.trailing then checkItems wanted length (i + 1) fs []
    else .error (.wrongLength i wanted)
  | i, f :: fs, v :: vs =>
    match f.check v with
    | .ok _ => checkItems wanted length (i + 1) fs vs
    | .error e => .error e

/-- "1 element", "2 elements". -/
def elements (n : Nat) : String :=
  if n = 1 then "1 element" else s!"{n} elements"

/-- Reads a record of a type. -/
def read {α : Type} (type : String) (r : Record α) : Shape α
  | .obj members =>
    match checkMembers r.fields members with
    | .error e => .error e
    | .ok _ =>
      match r.fields.find? fun f => !f.optional && (Json.Members.get? f.name members).isNone with
      | some f => .error (.missingField f.name)
      | none => r.build fun name => Json.Members.get? name members
  | .arr items =>
    let wanted := s!"{type} with {elements r.fields.length}"
    match checkItems wanted items.length 0 r.fields items with
    | .error e => .error e
    | .ok _ =>
      let named := (r.fields.map (·.name)).zip items
      r.build fun name => named.lookup name
  | v => .error (.wrongType v type)

end Record
end Switchboard
