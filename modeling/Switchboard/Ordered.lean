/-!
# Ordered tables

An `Ordered` table holds one value under each of its keys, which are texts, in the order of the
keys. The order is part of the type, so that no key is there twice. Entering a key anew replaces its
value. What each operation does is said through `get?`, and what it can leave in the table through
its entries.
-/

namespace Switchboard

/-- Values under keys, in the order of the keys. -/
structure Ordered (α : Type) where
  entries : List (String × α)
  inOrder : entries.Pairwise fun d e => d.1 < e.1

namespace Ordered

variable {α : Type} {k l : String} {a : α} {e : String × α} {es : List (String × α)}

@[ext]
theorem ext {m n : Ordered α} (h : m.entries = n.entries) : m = n := by
  cases m
  cases n
  congr

def empty : Ordered α :=
  ⟨[], .nil⟩

instance : Inhabited (Ordered α) := ⟨empty⟩

def size (m : Ordered α) : Nat :=
  m.entries.length

def values (m : Ordered α) : List α :=
  m.entries.map Prod.snd

/-- The value under a key. -/
def get? (k : String) (m : Ordered α) : Option α :=
  (m.entries.find? fun e => e.1 = k).map Prod.snd

/-! ### Entering a value -/

/-- The entries with one more, at its place in the order, or in place of one of the same key. -/
def enter (k : String) (a : α) : List (String × α) → List (String × α)
  | [] => [(k, a)]
  | e :: es =>
    if k < e.1 then (k, a) :: e :: es
    else if k = e.1 then (k, a) :: es
    else e :: enter k a es

theorem mem_enter (h : e ∈ enter k a es) : e = (k, a) ∨ e ∈ es := by
  induction es with
  | nil => exact .inl (List.mem_singleton.mp h)
  | cons d es ih =>
    unfold enter at h
    split at h
    · exact List.mem_cons.mp h
    · split at h
      · exact (List.mem_cons.mp h).imp_right (List.mem_cons_of_mem d)
      · rcases List.mem_cons.mp h with rfl | he
        · exact .inr List.mem_cons_self
        · exact (ih he).imp_right (List.mem_cons_of_mem d)

theorem inOrder_enter (k : String) (a : α) (h : es.Pairwise fun d e => d.1 < e.1) :
    (enter k a es).Pairwise fun d e => d.1 < e.1 := by
  induction es with
  | nil => exact List.pairwise_singleton _ _
  | cons e es ih =>
    obtain ⟨he, hes⟩ := List.pairwise_cons.mp h
    unfold enter
    split
    · next hlt =>
      refine List.pairwise_cons.mpr ⟨fun d hd => ?_, h⟩
      rcases List.mem_cons.mp hd with rfl | hd
      · exact hlt
      · exact String.lt_trans hlt (he d hd)
    · next hlt =>
      split
      · next heq => exact List.pairwise_cons.mpr ⟨fun d hd => heq ▸ he d hd, hes⟩
      · next hne =>
        -- The order is total, so the new entry belongs behind the first one.
        have hbehind : e.1 < k := by
          have hle : e.1 ≤ k := String.not_lt.mp hlt
          exact Decidable.byContradiction fun hge =>
            hne (String.le_antisymm (String.not_lt.mp hge) hle)
        refine List.pairwise_cons.mpr ⟨fun d hd => ?_, ih hes⟩
        rcases mem_enter hd with rfl | hd
        · exact hbehind
        · exact he d hd

theorem find?_cons (e : String × α) (es : List (String × α)) (k : String) :
    (e :: es).find? (fun d => d.1 = k) = if k = e.1 then some e else es.find? fun d => d.1 = k := by
  by_cases h : e.1 = k
  · rw [List.find?_cons_of_pos (by simpa using h), if_pos h.symm]
  · rw [List.find?_cons_of_neg (by simpa using h), if_neg (Ne.symm h)]

theorem find?_enter (k l : String) (a : α) (es : List (String × α)) :
    (enter k a es).find? (fun d => d.1 = l) =
      if l = k then some (k, a) else es.find? fun d => d.1 = l := by
  induction es with
  | nil => exact find?_cons (k, a) [] l
  | cons e es ih =>
    rw [enter]
    split
    · exact find?_cons (k, a) (e :: es) l
    · split
      · next heq =>
        rw [find?_cons, find?_cons, heq]
        split <;> rfl
      · next hne =>
        rw [find?_cons, find?_cons, ih]
        split
        · next hl => rw [if_neg (hl ▸ Ne.symm hne)]
        · rfl

theorem length_enter (h : ∀ e ∈ es, e.1 ≠ k) : (enter k a es).length = es.length + 1 := by
  induction es with
  | nil => rfl
  | cons e es ih =>
    obtain ⟨he, hes⟩ := List.forall_mem_cons.mp h
    rw [enter]
    split
    · rfl
    · rw [if_neg he.symm, List.length_cons, ih hes, List.length_cons]

/-! ### Operations -/

/-- Enters a value; an earlier one under the same key is replaced. -/
def insert (k : String) (a : α) (m : Ordered α) : Ordered α where
  entries := enter k a m.entries
  inOrder := inOrder_enter k a m.inOrder

/-- Changes the value under a key, if there is one. -/
def modify (k : String) (f : α → α) (m : Ordered α) : Ordered α where
  entries := m.entries.map fun e => if e.1 = k then (e.1, f e.2) else e
  inOrder := List.pairwise_map.mpr (m.inOrder.imp fun {d e} h => by
    have hkey (e : String × α) : (if e.1 = k then (e.1, f e.2) else e).1 = e.1 := by split <;> rfl
    rwa [hkey, hkey])

/-- Keeps the entries that pass a test. -/
def filter (p : String × α → Bool) (m : Ordered α) : Ordered α where
  entries := m.entries.filter p
  inOrder := m.inOrder.filter p

def erase (k : String) (m : Ordered α) : Ordered α :=
  m.filter fun e => e.1 ≠ k

/-- The values whose keys are behind a bound. -/
def behind (bound : String) (m : Ordered α) : List α :=
  (m.filter fun e => bound < e.1).values

/-! ### What is under a key -/

theorem nodup_keys (m : Ordered α) : (m.entries.map Prod.fst).Nodup := by
  refine List.pairwise_map.mpr (m.inOrder.imp fun {d e} h heq => ?_)
  exact String.lt_irrefl e.1 (heq ▸ h)

theorem mem_entries {m : Ordered α} : (k, a) ∈ m.entries ↔ m.get? k = some a := by
  obtain ⟨entries, inOrder⟩ := m
  simp only [get?, Option.map_eq_some_iff, Prod.exists, exists_eq_right]
  induction entries with
  | nil => simp
  | cons e es ih =>
    obtain ⟨he, hes⟩ := List.pairwise_cons.mp inOrder
    obtain ⟨k', a'⟩ := e
    by_cases h : k' = k
    · subst h
      have absent : (k', a) ∉ es := fun hmem => String.lt_irrefl k' (he _ hmem)
      simp [absent, eq_comm]
    · simp only [List.mem_cons, Prod.mk.injEq, List.find?_cons, h, decide_false]
      rw [← ih hes]
      simp [Ne.symm h]

theorem get?_filter {p : String × α → Bool} {m : Ordered α} :
    (m.filter p).get? k = some a ↔ m.get? k = some a ∧ p (k, a) = true := by
  rw [← mem_entries, ← mem_entries]
  exact List.mem_filter

theorem get?_insert (k l : String) (a : α) (m : Ordered α) :
    (m.insert k a).get? l = if l = k then some a else m.get? l := by
  rw [get?, insert, find?_enter]
  split <;> rfl

theorem get?_erase (k l : String) (m : Ordered α) :
    (m.erase k).get? l = if l = k then none else m.get? l := by
  apply Option.ext
  intro a
  rw [erase, get?_filter]
  by_cases h : l = k <;> simp [h]

theorem get?_modify (k l : String) (f : α → α) (m : Ordered α) :
    (m.modify k f).get? l = if l = k then (m.get? k).map f else m.get? l := by
  have hsame : ((fun d : String × α => decide (d.1 = l)) ∘ fun e : String × α =>
      if e.1 = k then (e.1, f e.2) else e) = fun d => decide (d.1 = l) := by
    funext e
    simp only [Function.comp_apply]
    split <;> rfl
  rw [get?, modify, List.find?_map, hsame, get?, get?]
  cases hfind : m.entries.find? fun d => decide (d.1 = l) with
  | none =>
    split
    · next heq => rw [← heq, hfind]; rfl
    · rfl
  | some e =>
    have hkey : e.1 = l := by simpa using List.find?_some hfind
    simp only [Option.map_some, hkey]
    split
    · next heq => rw [← heq, hfind]; rfl
    · rfl

/-! ### How many there are, and which -/

theorem size_insert {m : Ordered α} (h : m.get? k = none) : (m.insert k a).size = m.size + 1 := by
  refine length_enter fun e he hkey => ?_
  rw [mem_entries.mp (show (k, e.2) ∈ m.entries from hkey ▸ he)] at h
  cases h

theorem size_erase {m : Ordered α} (h : m.get? k = some a) : (m.erase k).size + 1 = m.size := by
  have hmem : k ∈ m.entries.map Prod.fst := List.mem_map_of_mem (mem_entries.mpr h)
  have hkeys : (m.erase k).entries.map Prod.fst = (m.entries.map Prod.fst).erase k := by
    rw [m.nodup_keys.erase_eq_filter, List.filter_map]
    congr 1
    refine List.filter_congr fun e _ => ?_
    by_cases hkey : e.1 = k <;> simp [hkey]
  have hlength := congrArg List.length hkeys
  rw [List.length_map, List.length_erase_of_mem hmem, List.length_map] at hlength
  have hpos : 0 < m.entries.length := List.length_pos_of_mem (mem_entries.mpr h)
  rw [size, size, hlength]
  omega

theorem erase_of_get?_eq_none {m : Ordered α} (h : m.get? k = none) : m.erase k = m := by
  apply ext
  refine List.filter_eq_self.mpr fun e he => decide_eq_true fun hkey => ?_
  cases (mem_entries.mp (hkey ▸ he : (k, e.2) ∈ m.entries)).symm.trans h

theorem size_modify (k : String) (f : α → α) (m : Ordered α) : (m.modify k f).size = m.size :=
  List.length_map _

theorem mem_modify {f : α → α} {m : Ordered α} (h : e ∈ (m.modify k f).entries) :
    ∃ d ∈ m.entries, e.1 = d.1 ∧ (e.2 = d.2 ∨ e.2 = f d.2) := by
  obtain ⟨d, hd, rfl⟩ := List.mem_map.mp h
  refine ⟨d, hd, ?_⟩
  split
  · exact ⟨rfl, .inr rfl⟩
  · exact ⟨rfl, .inl rfl⟩

end Ordered
end Switchboard
