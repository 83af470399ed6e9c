/-!
# Tables

A `Table` holds one value under each of its keys, in the order in which the keys were entered.
Entering a key anew replaces its value and moves it to the end; a value that is taken is gone from
the table. What each operation does is said through `get?`.
-/

namespace Switchboard

/-- Values under keys, each key once. -/
structure Table (κ α : Type) where
  entries : List (κ × α)
  nodup : (entries.map Prod.fst).Nodup

namespace Table

variable {κ α : Type}

@[ext]
theorem ext {t u : Table κ α} (h : t.entries = u.entries) : t = u := by
  cases t
  cases u
  congr

def empty : Table κ α :=
  ⟨[], .nil⟩

instance : Inhabited (Table κ α) := ⟨empty⟩

def toList (t : Table κ α) : List (κ × α) :=
  t.entries

def keys (t : Table κ α) : List κ :=
  t.entries.map Prod.fst

def size (t : Table κ α) : Nat :=
  t.entries.length

/-- Keeps the entries that pass a test. -/
def filter (p : κ × α → Bool) (t : Table κ α) : Table κ α where
  entries := t.entries.filter p
  nodup := t.nodup.sublist (List.filter_sublist.map Prod.fst)

variable [DecidableEq κ]

/-- The value under a key. -/
def get? (k : κ) (t : Table κ α) : Option α :=
  (t.entries.find? fun e => e.1 = k).map Prod.snd

def contains (k : κ) (t : Table κ α) : Bool :=
  (t.get? k).isSome

def erase (k : κ) (t : Table κ α) : Table κ α :=
  t.filter fun e => e.1 ≠ k

/-- Enters a value; an earlier one under the same key is dropped. -/
def insert (k : κ) (a : α) (t : Table κ α) : Table κ α where
  entries := (t.erase k).entries ++ [(k, a)]
  nodup := by
    simp only [List.map_append, List.map_cons, List.map_nil]
    rw [List.nodup_append]
    refine ⟨(t.erase k).nodup, by simp, fun x hx y hy => ?_⟩
    simp only [List.mem_singleton] at hy
    subst hy
    obtain ⟨e, he, rfl⟩ := List.mem_map.1 hx
    simpa using (List.mem_filter.1 he).2

/-- The value under a key, and the table without it. -/
def take (k : κ) (t : Table κ α) : Option (α × Table κ α) :=
  (t.get? k).map fun a => (a, t.erase k)

/-! ### What is under a key -/

@[simp]
theorem get?_empty (k : κ) : (empty : Table κ α).get? k = none := rfl

theorem mem_entries {t : Table κ α} {k : κ} {a : α} : (k, a) ∈ t.entries ↔ t.get? k = some a := by
  obtain ⟨entries, nodup⟩ := t
  simp only [get?, Option.map_eq_some_iff, Prod.exists, exists_eq_right]
  induction entries with
  | nil => simp
  | cons e es ih =>
    rw [List.map_cons, List.nodup_cons] at nodup
    obtain ⟨k', a'⟩ := e
    by_cases h : k' = k
    · subst h
      have absent : (k', a) ∉ es := fun m => nodup.1 (List.mem_map.2 ⟨_, m, rfl⟩)
      simp [absent, eq_comm]
    · simp only [List.mem_cons, Prod.mk.injEq, List.find?_cons, h, decide_false]
      rw [← ih nodup.2]
      simp [Ne.symm h]

theorem contains_iff {t : Table κ α} {k : κ} : t.contains k = true ↔ k ∈ t.keys := by
  simp only [contains, Option.isSome_iff_exists, ← mem_entries, keys, List.mem_map, Prod.exists,
    exists_and_right, exists_eq_right]

theorem get?_filter {p : κ × α → Bool} {t : Table κ α} {k : κ} {a : α} :
    (t.filter p).get? k = some a ↔ t.get? k = some a ∧ p (k, a) = true := by
  rw [← mem_entries, ← mem_entries]
  exact List.mem_filter

theorem get?_erase (t : Table κ α) (k l : κ) :
    (t.erase k).get? l = if l = k then none else t.get? l := by
  apply Option.ext
  intro a
  rw [erase, get?_filter]
  by_cases h : l = k <;> simp [h]

theorem get?_insert (t : Table κ α) (k l : κ) (a : α) :
    (t.insert k a).get? l = if l = k then some a else t.get? l := by
  apply Option.ext
  intro b
  rw [← mem_entries, insert, List.mem_append, mem_entries, get?_erase]
  by_cases h : l = k
  · simp [h, eq_comm]
  · simp [h]

/-! ### Entries -/

/-- What is under a key, as a list of entries. -/
theorem filter_eq_toList (t : Table κ α) (k : κ) :
    (t.entries.filter fun e => decide (e.1 = k)) = (t.get? k).toList.map fun a => (k, a) := by
  obtain ⟨entries, nodup⟩ := t
  simp only [get?]
  induction entries with
  | nil => rfl
  | cons e es ih =>
    rw [List.map_cons, List.nodup_cons] at nodup
    obtain ⟨hnew, nodup⟩ := nodup
    by_cases hk : e.1 = k
    · have hnone : es.filter (fun e => decide (e.1 = k)) = [] := by
        refine List.filter_eq_nil_iff.mpr fun e' he' hk' => hnew ?_
        rw [hk, ← of_decide_eq_true hk']
        exact List.mem_map_of_mem he'
      rw [List.filter_cons_of_pos (by simpa using hk), List.find?_cons_of_pos (by simpa using hk),
        hnone, ← hk]
      rfl
    · rw [List.filter_cons_of_neg (by simpa using hk), List.find?_cons_of_neg (by simpa using hk)]
      exact ih nodup

/-- What is under a key, and everything else. -/
theorem perm_erase (t : Table κ α) (k : κ) :
    t.entries.Perm ((t.erase k).entries ++ (t.get? k).toList.map fun a => (k, a)) := by
  have hsplit := List.filter_append_perm (fun e : κ × α => decide (e.1 ≠ k)) t.entries
  have hothers : (t.entries.filter fun e => !decide (e.1 ≠ k)) =
      t.entries.filter fun e => decide (e.1 = k) :=
    List.filter_congr fun e _ => by simp
  rw [hothers, filter_eq_toList] at hsplit
  exact hsplit.symm

theorem erase_of_get?_eq_none {t : Table κ α} {k : κ} (h : t.get? k = none) : t.erase k = t := by
  apply ext
  refine List.filter_eq_self.mpr fun e he => decide_eq_true fun hk => ?_
  cases (mem_entries.mp (hk ▸ he : (k, e.2) ∈ t.entries)).symm.trans h

end Table
end Switchboard
