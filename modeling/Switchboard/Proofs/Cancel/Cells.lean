import Switchboard.Proofs.Cancel.Registry

/-!
# The two cells behind a handle

A signal is kept in two cells: a token, which is fired or not, and a slot for the reason. A `Source`
says where they are, and a copy of it shares both. A cancellation looks at both cells, fills the
slot if neither has been used, and then fires the token; whoever was handed the token alone can
fire that, and leaves the slot as it is.

`Cells.of` lays signals out as cells, and `Wiring.of` does it for a whole registry. What is done to
the cells is what the registry does to its signals, one equation for each operation. So the two
cells are never seen in a state that is not one of a signal's, such as a reason with a token that
has not been fired.
-/

namespace Switchboard

/-- Where the two cells of a signal are. -/
structure Source where
  token : Nat
  slot : Nat
deriving DecidableEq

/-- The source that a handle stands for. -/
def Source.of (h : Handle) : Source :=
  ⟨h.index, h.index⟩

/-- Two handles are the same if their slots are. -/
theorem Source.slot_of_eq_iff {h h' : Handle} :
    (Source.of h).slot = (Source.of h').slot ↔ h = h' := by
  cases h
  cases h'
  simp [Source.of]

/-- Nobody notices when what is in a list is put there again. -/
private theorem set_getD {α : Type} (l : List α) (i : Nat) (d : α) : l.set i (l.getD i d) = l := by
  by_cases hi : i < l.length
  · rw [List.getD_eq_getElem?_getD, List.getElem?_eq_getElem hi, Option.getD_some,
      List.set_getElem_self]
  · exact List.set_eq_of_length_le (Nat.le_of_not_lt hi)

namespace Signals

variable {s : Signals} {h : Handle}

theorem fire_eq_set (s : Signals) (h : Handle) (reason : Option String) :
    s.fire h reason = ⟨s.all.set h.index ((s.get h).fire reason)⟩ := by
  rw [fire, get, List.getD_eq_getElem?_getD]
  exact congrArg Signals.mk (@List.modify_eq_set _ ⟨Signal.quiet⟩ _ _ _)

theorem fire_of_isFired (hs : (s.get h).isFired = true) (reason : Option String) :
    s.fire h reason = s := by
  rw [fire_eq_set, Signal.fire_of_isFired hs, get, set_getD]

theorem fire_of_quiet (hs : s.get h = .quiet) (reason : Option String) :
    s.fire h reason = ⟨s.all.set h.index (.fired reason)⟩ := by
  rw [fire_eq_set, hs]
  rfl

theorem fire_comm (s : Signals) (h h' : Handle) (reason : Option String) :
    (s.fire h reason).fire h' reason = (s.fire h' reason).fire h reason := by
  apply congrArg Signals.mk
  apply List.ext_getElem?
  intro i
  simp only [fire, List.getElem?_modify]
  by_cases hi : h.index = i <;> by_cases hi' : h'.index = i <;> simp [hi, hi']

/-- The order does not matter in which signals are fired together. -/
theorem fireAll_perm {hs hs' : List Handle} (hperm : hs.Perm hs') (s : Signals)
    (reason : Option String) : s.fireAll hs reason = s.fireAll hs' reason := by
  refine hperm.foldl_eq' (fun h _ h' _ s => ?_) s
  exact s.fire_comm h h' reason

end Signals

/-- Sources of handles in another order are the sources of the handles in another order. -/
theorem Source.exists_of_perm {xs : List Source} {hs : List Handle}
    (hperm : xs.Perm (hs.map Source.of)) :
    ∃ hs' : List Handle, hs'.Perm hs ∧ xs = hs'.map Source.of := by
  refine ⟨xs.map fun x => ⟨x.slot⟩, ?_, ?_⟩
  · have hback : (hs.map Source.of).map (fun x => (⟨x.slot⟩ : Handle)) = hs := by
      simp [Source.of, Function.comp_def]
    rw [← hback]
    exact hperm.map _
  · have hof : ∀ x ∈ xs, Source.of ⟨x.slot⟩ = x := by
      intro x hx
      obtain ⟨h, -, rfl⟩ := List.mem_map.1 (hperm.mem_iff.1 hx)
      rfl
    rw [List.map_map]
    exact ((List.map_congr_left hof).trans (List.map_id xs)).symm

/-- An order in which to go through sources. -/
structure SourceOrder where
  arrange : List Source → List Source
  perm : ∀ xs, (arrange xs).Perm xs

/-! ### The cells -/

/-- All tokens, and all slots. -/
structure Cells where
  tokens : List Bool := []
  slots : List (Option String) := []

namespace Cells

/-- A source with cells of its own. -/
def fresh (c : Cells) : Source × Cells :=
  (⟨c.tokens.length, c.slots.length⟩, ⟨c.tokens ++ [false], c.slots ++ [none]⟩)

def isCancelled (c : Cells) (x : Source) : Bool :=
  c.tokens.getD x.token false

def reason (c : Cells) (x : Source) : Option String :=
  c.slots.getD x.slot none

def fireToken (c : Cells) (x : Source) : Cells :=
  { c with tokens := c.tokens.set x.token true }

/-- Puts a reason into the slot, if the token has not been fired and no reason is there. -/
def fillSlot (c : Cells) (x : Source) (reason : Option String) : Cells :=
  if !c.isCancelled x && (c.reason x).isNone then { c with slots := c.slots.set x.slot reason }
  else c

def cancel (c : Cells) (x : Source) (reason : Option String) : Cells :=
  (c.fillSlot x reason).fireToken x

def cancelEach (c : Cells) (xs : List Source) (reason : Option String) : Cells :=
  xs.foldl (fun c x => c.cancel x reason) c

/-- Signals, laid out as cells. -/
def of (s : Signals) : Cells :=
  ⟨s.all.map Signal.isFired, s.all.map Signal.reason⟩

variable (s : Signals) (h : Handle) (reason : Option String)

theorem isCancelled_of : (of s).isCancelled (.of h) = (s.get h).isFired := by
  simp only [isCancelled, of, Source.of, Signals.get, List.getD_eq_getElem?_getD, List.getElem?_map]
  cases s.all[h.index]? <;> rfl

theorem reason_of : (of s).reason (.of h) = (s.get h).reason := by
  simp only [Cells.reason, of, Source.of, Signals.get, List.getD_eq_getElem?_getD,
    List.getElem?_map]
  cases s.all[h.index]? <;> rfl

theorem fresh_of : (of s).fresh = (.of s.fresh.1, of s.fresh.2) := by
  simp [fresh, of, Source.of, Signals.fresh, Signal.isFired, Signal.reason]

theorem fireToken_of_isCancelled {c : Cells} {x : Source} (hx : c.isCancelled x = true) :
    c.fireToken x = c := by
  rw [fireToken, ← hx, isCancelled, set_getD]

/-- **A cancellation of the cells** is one of the signal. -/
theorem cancel_of : (of s).cancel (.of h) reason = of (s.fire h reason) := by
  rw [cancel, fillSlot, isCancelled_of, reason_of]
  cases hs : s.get h with
  | quiet =>
    -- Neither cell has been used, and now both are.
    rw [Signals.fire_of_quiet hs]
    simp [fireToken, of, Source.of, List.map_set, Signal.isFired, Signal.reason]
  | fired r₀ =>
    have hfired : (s.get h).isFired = true := by rw [hs]; rfl
    rw [Signals.fire_of_isFired hfired]
    exact fireToken_of_isCancelled ((isCancelled_of s h).trans hfired)

/-- A cancellation without a reason does no more than the token. -/
theorem cancel_none (c : Cells) (x : Source) : c.cancel x none = c.fireToken x := by
  rw [cancel, fillSlot]
  split
  · rename_i hunused
    have hempty : c.slots.getD x.slot none = none := by simp_all [Cells.reason]
    have hset : c.slots.set x.slot none = c.slots := by
      rw [← hempty, set_getD]
    rw [hset]
  · rfl

/-- **A token that is fired alone** is a signal that is fired without a reason. -/
theorem fireToken_of : (of s).fireToken (.of h) = of (s.fire h none) := by
  rw [← cancel_none, cancel_of]

theorem cancelEach_of (s : Signals) (hs : List Handle) (reason : Option String) :
    (of s).cancelEach (hs.map .of) reason = of (s.fireAll hs reason) := by
  induction hs generalizing s with
  | nil => rfl
  | cons h hs ih =>
    have hrest := ih (s.fire h reason)
    rw [← cancel_of] at hrest
    exact hrest

end Cells

/-! ### Tables of sources -/

namespace Table

variable {κ α β : Type}

/-- The same keys, with other values. -/
def mapValues (f : α → β) (t : Table κ α) : Table κ β where
  entries := t.entries.map fun e => (e.1, f e.2)
  nodup := by
    rw [List.map_map]
    exact t.nodup

variable [DecidableEq κ] (f : α → β) (t : Table κ α) (k : κ)

theorem get?_mapValues : (t.mapValues f).get? k = (t.get? k).map f := by
  simp only [get?, mapValues, List.find?_map, Option.map_map]
  rfl

theorem erase_mapValues : (t.mapValues f).erase k = (t.erase k).mapValues f := by
  apply Table.ext
  simp only [erase, filter, mapValues, List.filter_map]
  rfl

theorem insert_mapValues (a : α) :
    (t.mapValues f).insert k (f a) = (t.insert k a).mapValues f := by
  apply Table.ext
  have herase := congrArg Table.entries (erase_mapValues f t k)
  simp only [insert, herase]
  simp [mapValues]

end Table

/-! ### Registered sources -/

/-- Cells, and the sources that serve requests. -/
structure Wiring where
  cells : Cells := {}
  entries : Table RequestId Source := .empty

namespace Wiring

def fresh (w : Wiring) : Source × Wiring :=
  (w.cells.fresh.1, { w with cells := w.cells.fresh.2 })

def fire (w : Wiring) (x : Source) (reason : Option String) : Wiring :=
  { w with cells := w.cells.cancel x reason }

def fireToken (w : Wiring) (x : Source) : Wiring :=
  { w with cells := w.cells.fireToken x }

def register (w : Wiring) (id : RequestId) (x : Source) : Wiring :=
  { w with entries := w.entries.insert id x }

/-- Cancels the source of a request and forgets the request; whether there was one. -/
def cancel (w : Wiring) (id : RequestId) (reason : Option String) : Bool × Wiring :=
  match w.entries.take id with
  | some (x, entries) => (true, { cells := w.cells.cancel x reason, entries })
  | none => (false, w)

def unregister (w : Wiring) (id : RequestId) : Bool × Wiring :=
  (w.entries.contains id, { w with entries := w.entries.erase id })

/-- Forgets a request if this source serves it; whether that was so. The slot tells. -/
def release (w : Wiring) (id : RequestId) (x : Source) : Bool × Wiring :=
  match w.entries.get? id with
  | some y =>
    if y.slot = x.slot then (true, { w with entries := w.entries.erase id }) else (false, w)
  | none => (false, w)

/-- Cancels the sources of all requests, in some order, and forgets the requests; how many there
were. -/
def cancelAll (w : Wiring) (reason : Option String) (order : SourceOrder) : Nat × Wiring :=
  let xs := order.arrange (w.entries.toList.map Prod.snd)
  (xs.length, { cells := w.cells.cancelEach xs reason })

/-- A registry, with its signals laid out as cells. -/
def of (r : Registry) : Wiring :=
  ⟨.of r.signals, r.table.mapValues .of⟩

variable (r : Registry) (id : RequestId) (h : Handle) (reason : Option String)

theorem fresh_of : (of r).fresh = (.of r.fresh.1, of r.fresh.2) := by
  simp only [fresh, of, Cells.fresh_of]
  rfl

theorem fire_of : (of r).fire (.of h) reason = of (r.fire h reason) := by
  simp only [fire, of, Cells.cancel_of]
  rfl

theorem fireToken_of : (of r).fireToken (.of h) = of (r.fire h none) := by
  simp only [fireToken, of, Cells.fireToken_of]
  rfl

theorem register_of : (of r).register id (.of h) = of (r.register id h) := by
  simp only [register, of, Table.insert_mapValues]
  rfl

theorem cancel_of :
    (of r).cancel id reason = ((r.cancel id reason).1, of (r.cancel id reason).2) := by
  simp only [cancel, of, Table.take, Table.get?_mapValues, Table.erase_mapValues, Registry.cancel]
  cases r.table.get? id with
  | none => rfl
  | some h => simp [Cells.cancel_of]

theorem unregister_of :
    (of r).unregister id = ((r.unregister id).1, of (r.unregister id).2) := by
  simp [unregister, of, Registry.unregister, Registry.isRegistered, Table.contains,
    Table.get?_mapValues, Table.erase_mapValues]

theorem release_of :
    (of r).release id (.of h) = ((r.release id h).1, of (r.release id h).2) := by
  simp only [release, of, Registry.release, Table.get?_mapValues, Table.erase_mapValues]
  cases r.table.get? id with
  | none => simp
  | some h' =>
    by_cases hh : h' = h
    · simp [hh]
    · simp [hh, Source.slot_of_eq_iff]

theorem cancelAll_of (order : SourceOrder) :
    (of r).cancelAll reason order = ((r.cancelAll reason).1, of (r.cancelAll reason).2) := by
  have hsources : (of r).entries.toList.map Prod.snd =
      (r.table.toList.map Prod.snd).map Source.of := by
    simp [of, Table.mapValues, Table.toList]
  obtain ⟨hs, hperm, harranged⟩ := Source.exists_of_perm (order.perm
    ((r.table.toList.map Prod.snd).map Source.of))
  have hcells : (of r).cells.cancelEach (hs.map .of) reason =
      .of (r.signals.fireAll (r.table.toList.map Prod.snd) reason) := by
    rw [← Signals.fireAll_perm hperm]
    exact Cells.cancelEach_of _ _ _
  have hcount : hs.length = r.count := by
    rw [hperm.length_eq, List.length_map]
    rfl
  rw [cancelAll, hsources, harranged, hcells, List.length_map, hcount]
  rfl

end Wiring
end Switchboard
