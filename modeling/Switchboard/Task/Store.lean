import Switchboard.Ordered
import Switchboard.Task.Basic
import Switchboard.Task.Cursor

/-!
# The task store

A `TaskStore` keeps tasks in the order of their identifiers, and results beside them. Each task is
entered under a key, which is a copy of its identifier; that the two stay the same is part of the
type. Operations that depend on the time take the instant at which they happen. One that may be
refused hands back the store either way.

New identifiers are counted up behind a stem, or made of random numbers, one drawn in every round.
Either way the first one that is free is taken, so that no task is ever replaced. Since a store
holds finitely many tasks, `firstFree` needs one try more than there are tasks. How many numbers are
drawn is left to chance: `draws` lists what the rounds of each search draw, and a search that no
number on its list ends is one that does not end.
-/

namespace Switchboard

/-- How the identifiers of new tasks are made. -/
inductive IdStrategy
  /-- 128 random bits, in hexadecimal. -/
  | random
  /-- A stem with a number behind it, from 1 on. -/
  | sequential (stem : String)
deriving DecidableEq

namespace IdStrategy

/-- A sequence whose first item names the strategy, or an object whose member `kind` does. -/
def ofJson : Shape IdStrategy
  | .obj members =>
    match Json.Members.get? "kind" members with
    | none => .error (.missingField "kind")
    | some kind =>
      match pick kind with
      | .error e => .error e
      | .ok false => .ok .random
      | .ok true =>
        match Json.Members.get? "prefix" members with
        | none => .error (.missingField "prefix")
        | some v => (Shape.text v).map .sequential
  | .arr [] => .error (.missingField "kind")
  | .arr (kind :: rest) =>
    match pick kind, rest with
    | .error e, _ => .error e
    | .ok false, [] => .ok .random
    | .ok false, _ => .error (.wrongLength rest.length "0 elements in sequence")
    | .ok true, [] =>
      .error (.wrongLength 0 "struct variant TaskIdStrategy::Sequential with 1 element")
    | .ok true, v :: more =>
      match Shape.text v, more with
      | .error e, _ => .error e
      | .ok stem, [] => .ok (.sequential stem)
      | .ok _, _ => .error (.wrongLength rest.length "1 element in sequence")
  | v => .error (.wrongType v "internally tagged enum TaskIdStrategy")
where
  /-- Whether the name is that of the sequential strategy. -/
  pick : Shape Bool
    | .str "random" => .ok false
    | .str "sequential" => .ok true
    | .str name => .error (.unknownVariant name ["random", "sequential"])
    | v => .error (.wrongType v "variant identifier")

/-- The identifier of a number: decimal behind a stem, or 32 hexadecimal digits. -/
def idOf : IdStrategy → Nat → String
  | .random, n =>
    let digits := Nat.toDigits 16 n
    String.ofList (List.replicate (32 - digits.length) '0' ++ digits)
  | .sequential stem, n => stem ++ toString n

/-- The numbers wrap around here. -/
def modulus : IdStrategy → Nat
  | .random => 1 <<< 128
  | .sequential _ => UInt64.size

def toJson : IdStrategy → Json
  | .random => .object [("kind", .str "random")]
  | .sequential stem => .object [("kind", .str "sequential"), ("prefix", .str stem)]

end IdStrategy

/-- How a store works. -/
structure TaskConfig where
  /-- How many tasks a page holds; 0 counts as 1. -/
  pageSize : Nat := 50
  idStrategy : IdStrategy := .random
  /-- The poll interval of tasks that are created without one, in milliseconds. -/
  defaultPollMillis : Option Nat := none
deriving DecidableEq

namespace TaskConfig

/-- A configuration whose missing fields are those of `base`. -/
def record (base : TaskConfig) : Record TaskConfig :=
  Record.of TaskConfig.mk
    |>.andThen (.withDefault "page_size" base.pageSize Shape.size)
    |>.andThen (.withDefault "id_strategy" base.idStrategy IdStrategy.ofJson)
    |>.andThen (.withDefault "default_poll_interval_ms" base.defaultPollMillis
      (Shape.nullable Shape.nat64))

def ofJsonOver (base : TaskConfig) : Shape TaskConfig :=
  (record base).read "struct TaskEngineConfig"

def ofJson : Shape TaskConfig :=
  ofJsonOver {}

def toJson (c : TaskConfig) : Json :=
  .object
    [("page_size", .int c.pageSize), ("id_strategy", c.idStrategy.toJson),
      ("default_poll_interval_ms", c.defaultPollMillis.elim .null fun n => .int n)]

end TaskConfig

/-- Why an operation on a task was refused. -/
inductive TaskError
  | notFound (id : String)
  | badTransition (source target : TaskStatus)
  | badCursor
deriving DecidableEq

def TaskError.message : TaskError → String
  | .notFound id => s!"task not found: {id}"
  | .badTransition source target => s!"cannot move task from {source.name} to {target.name}"
  | .badCursor => "invalid pagination cursor"

/-! ### Tasks under their identifiers -/

namespace Task

/-- Every task is kept under its own identifier. -/
def Keyed (table : Ordered Task) : Prop :=
  ∀ e ∈ table.entries, e.1 = e.2.id

namespace Keyed

variable {table : Ordered Task}

theorem empty : Keyed .empty :=
  nofun

theorem insert (h : Keyed table) (t : Task) : Keyed (table.insert t.id t) := by
  intro e he
  rcases Ordered.mem_enter he with rfl | he
  · rfl
  · exact h e he

/-- Changing a task without its identifier leaves it where it belongs. -/
theorem modify (h : Keyed table) (id : String) {f : Task → Task} (hf : ∀ t, (f t).id = t.id) :
    Keyed (table.modify id f) := by
  intro e he
  obtain ⟨d, hd, hkey, hsame | hchanged⟩ := Ordered.mem_modify he
  · rw [hkey, hsame]
    exact h d hd
  · rw [hkey, hchanged, hf]
    exact h d hd

theorem filter (h : Keyed table) (p : String × Task → Bool) : Keyed (table.filter p) :=
  fun e he => h e (List.mem_filter.mp he).1

end Keyed
end Task

structure TaskStore where
  config : TaskConfig
  /-- The random numbers that the searches for identifiers draw, one for each round. -/
  draws : Nat → List (BitVec 128)
  table : Ordered Task := .empty
  keyed : Task.Keyed table
  results : List (String × Json) := []
  /-- The number of the next identifier. -/
  sequence : Nat := 1
  /-- How many searches have drawn random numbers. -/
  drawn : Nat := 0

namespace TaskStore

/-- A store without tasks. -/
def empty (config : TaskConfig) (draws : Nat → List (BitVec 128)) : TaskStore :=
  { config, draws, keyed := .empty }

/-- The tasks in the order of their keys. -/
def tasks (s : TaskStore) : List Task :=
  s.table.values

/-- How many tasks a page holds. -/
def pageSize (s : TaskStore) : Nat :=
  max s.config.pageSize 1

def get? (s : TaskStore) (id : String) : Option Task :=
  s.table.get? id

def contains (s : TaskStore) (id : String) : Bool :=
  (s.get? id).isSome

def size (s : TaskStore) : Nat :=
  s.table.size

/-! ### New identifiers -/

/-- The first number, from `n` on, that is not taken; gives up after so many tries. -/
def firstFree (taken : Nat → Bool) (modulus : Nat) : Nat → Nat → Nat
  | 0, n => n
  | tries + 1, n =>
    if taken n then firstFree taken modulus tries ((n + 1) % modulus) else n

/-- The identifier of the next task, and the store after it has been given out. -/
def mint (s : TaskStore) : String × TaskStore :=
  let strategy := s.config.idStrategy
  let taken (n : Nat) : Bool := s.contains (strategy.idOf n)
  match strategy with
  | .random =>
    let n := ((s.draws s.drawn).find? fun n => !taken n.toNat).getD 0
    (strategy.idOf n.toNat, { s with drawn := s.drawn + 1 })
  | .sequential _ =>
    let n := firstFree taken strategy.modulus s.size s.sequence
    (strategy.idOf n, { s with sequence := (n + 1) % strategy.modulus })

/-! ### Tasks -/

/-- Creates a task, which is working. -/
def create (s : TaskStore) (now : Timestamp) (ttl poll : Option Duration) : String × TaskStore :=
  let (id, s) := s.mint
  let task : Task :=
    { id, status := .working, createdAt := now, lastUpdatedAt := now, ttl
      pollInterval := poll.or (s.config.defaultPollMillis.map .ofMillis) }
  (id, { s with table := s.table.insert id task, keyed := s.keyed.insert task })

/-- Moves a task along an edge of the graph; the message is replaced. -/
def transition (s : TaskStore) (now : Timestamp) (id : String) (status : TaskStatus)
    (message : Option String) : Except TaskError Task × TaskStore :=
  match s.get? id with
  | none => (.error (.notFound id), s)
  | some task =>
    if task.status.canBecome status then
      let move (t : Task) : Task :=
        { t with status, statusMessage := message, lastUpdatedAt := now }
      (.ok (move task),
        { s with
          table := s.table.modify id move
          keyed := s.keyed.modify id fun _ => rfl })
    else (.error (.badTransition task.status status), s)

/-- Whether a task could be moved, and the store after it. -/
def update (s : TaskStore) (now : Timestamp) (id : String) (status : TaskStatus)
    (message : Option String) : Bool × TaskStore :=
  let (outcome, s) := s.transition now id status message
  (outcome.isOk, s)

def cancel (s : TaskStore) (now : Timestamp) (id : String) : Except TaskError Task × TaskStore :=
  s.transition now id .cancelled none

/-- Whether a task could be cancelled, and the store after it. -/
def cancelTask (s : TaskStore) (now : Timestamp) (id : String) : Bool × TaskStore :=
  let (outcome, s) := s.cancel now id
  (outcome.isOk, s)

/-- Stores the result of a task, whatever its status; whether there is such a task. -/
def setResult (s : TaskStore) (id : String) (v : Json) : Bool × TaskStore :=
  if s.contains id then
    (true, { s with results := (id, v) :: s.results.filter fun r => r.1 ≠ id })
  else (false, s)

def result? (s : TaskStore) (id : String) : Option Json :=
  s.results.lookup id

/-- Removes a task and its result; whether there was such a task. -/
def delete (s : TaskStore) (id : String) : Bool × TaskStore :=
  (s.contains id,
    { s with
      table := s.table.erase id
      keyed := s.keyed.filter _
      results := s.results.filter fun r => r.1 ≠ id })

/-- Removes every task older than it may get, with its result; how many there were. -/
def sweep (s : TaskStore) (now : Timestamp) : Nat × TaskStore :=
  let expired := (s.tasks.filter fun t => t.isExpired now).map Task.id
  (expired.length,
    { s with
      table := s.table.filter fun e => e.1 ∉ expired
      keyed := s.keyed.filter _
      results := s.results.filter fun r => r.1 ∉ expired })

/-! ### Pages -/

/-- The page behind a cursor, or the first one. -/
def page (s : TaskStore) (cursor : Option String) : Except TaskError TaskPage :=
  match cursor with
  | none => .ok (pageOf s.tasks)
  | some c =>
    match Cursor.toId? c with
    | some id => .ok (pageOf (s.table.behind id))
    | none => .error .badCursor
where
  /-- The page at the front of a listing. -/
  pageOf (listing : List Task) : TaskPage :=
    let tasks := listing.take s.pageSize
    { tasks
      nextCursor :=
        if s.pageSize < listing.length then tasks.getLast?.map fun t => Cursor.ofId t.id
        else none }

/-- The pages of a whole listing that starts behind a cursor, at most `fuel` of them. -/
def pagesFrom (s : TaskStore) : (fuel : Nat) → Option String → List TaskPage
  | 0, _ => []
  | fuel + 1, cursor =>
    match s.page cursor with
    | .error _ => []
    | .ok p =>
      match p.nextCursor with
      | none => [p]
      | some c => p :: pagesFrom s fuel (some c)

/-- The pages of the whole store. No page but the last is empty, so that there is at most one more
page than there are tasks. -/
def pages (s : TaskStore) : List TaskPage :=
  s.pagesFrom (s.size + 1) none

end TaskStore
end Switchboard
