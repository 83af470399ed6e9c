import Mathlib.Data.Finset.Card
import Mathlib.Data.Nat.Find
import Mathlib.Data.Nat.ModEq
import Switchboard.Proofs.Task.Operations

/-!
# New identifiers are free

A number can be read back from its identifier, so different numbers have different ones
(`IdStrategy.idOf_injective`). If fewer tasks have the identifier of a number than there are
numbers, one of the next numbers is hence free, and one try for each of these tasks is enough to
come to it (`TaskStore.exists_free_of_numbered_lt`). Otherwise the tries go once around. Random
numbers are drawn until one of them is free. Either way a new identifier is one that no task has, if
the search for it ends at all: `TaskStore.contains_mint`.
-/

namespace Switchboard

/-! ### Identifiers and their numbers -/

namespace IdStrategy

/-- The number that hexadecimal digits write. -/
def hexValue (digits : List Char) : Nat :=
  digits.foldl (fun n c => n * 16 + (Cursor.digitValue? c).getD 0) 0

theorem hexValue_concat (digits : List Char) {d : Nat} (hd : d < 16) :
    hexValue (digits ++ [Nat.digitChar d]) = hexValue digits * 16 + d := by
  have hvalue : Cursor.digitValue? (Nat.digitChar d) = some d := Cursor.digitValue?_digitChar d hd
  rw [hexValue, List.foldl_append, ← hexValue, List.foldl_cons, List.foldl_nil, hvalue,
    Option.getD_some]

theorem hexValue_replicate_zero (k : Nat) : hexValue (List.replicate k '0') = 0 := by
  induction k with
  | zero => rfl
  | succ k ih =>
    have hzero : hexValue (List.replicate k '0' ++ [Nat.digitChar 0]) = 0 := by
      rw [hexValue_concat _ (by decide), ih]
    rwa [List.replicate_succ']

/-- Zeros in front of the digits of a number do not count. -/
theorem hexValue_padded (k n : Nat) :
    hexValue (List.replicate k '0' ++ Nat.toDigits 16 n) = n := by
  induction n using Nat.strongRecOn with
  | _ n ih =>
    rcases Nat.lt_or_ge n 16 with hn | hn
    · rw [Nat.toDigits_of_lt_base hn, hexValue_concat _ hn, hexValue_replicate_zero]
      omega
    · rw [Nat.toDigits_of_base_le (by decide) hn, ← List.append_assoc,
        hexValue_concat _ (Nat.mod_lt n (by decide)), ih (n / 16) (by omega)]
      omega

/-- The number that an identifier writes. -/
def number : IdStrategy → String → Nat
  | .random, id => hexValue id.toList
  | .sequential stem, id => Nat.ofDigitChars 10 (id.toList.drop stem.length) 0

theorem number_idOf (strategy : IdStrategy) (n : Nat) : strategy.number (strategy.idOf n) = n := by
  cases strategy with
  | random => rw [number, idOf, String.toList_ofList, hexValue_padded]
  | sequential stem =>
    have hdigits : (toString n).toList = Nat.toDigits 10 n := Nat.toList_repr
    rw [number, idOf, String.toList_append, ← String.length_toList, List.drop_left, hdigits,
      Nat.ofDigitChars_toDigits (by decide) (by decide)]

/-- **No two numbers have the same identifier.** -/
theorem idOf_injective (strategy : IdStrategy) : Function.Injective strategy.idOf :=
  Function.LeftInverse.injective strategy.number_idOf

/-- The identifier is that of a number below the modulus. -/
def Makes (strategy : IdStrategy) (id : String) : Prop :=
  ∃ n < strategy.modulus, strategy.idOf n = id

theorem makes_iff {strategy : IdStrategy} {id : String} :
    strategy.Makes id ↔
      strategy.number id < strategy.modulus ∧ strategy.idOf (strategy.number id) = id := by
  constructor
  · rintro ⟨n, hn, rfl⟩
    rw [number_idOf]
    exact ⟨hn, rfl⟩
  · rintro ⟨hn, hid⟩
    exact ⟨_, hn, hid⟩

instance (strategy : IdStrategy) (id : String) : Decidable (strategy.Makes id) :=
  decidable_of_iff _ makes_iff.symm

theorem modulus_pos (strategy : IdStrategy) : 0 < strategy.modulus := by
  cases strategy with
  | random => decide
  | sequential stem => exact Nat.two_pow_pos 64

end IdStrategy

namespace TaskStore

/-! ### The search for a free number -/

section Search

variable {taken : Nat → Bool} {m n j : Nat}

/-- So many numbers from `n` on are taken, and the next one is free. -/
structure FirstFree (taken : Nat → Bool) (m n j : Nat) : Prop where
  before : ∀ i < j, taken ((n + i) % m) = true
  free : taken ((n + j) % m) = false

theorem exists_firstFree {bound : Nat} (hfree : ∃ j ≤ bound, taken ((n + j) % m) = false) :
    ∃ j ≤ bound, FirstFree taken m n j := by
  obtain ⟨j, hj, hfree⟩ := hfree
  have hsome : ∃ j, taken ((n + j) % m) = false := ⟨j, hfree⟩
  refine ⟨Nat.find hsome, (Nat.find_min' hsome hfree).trans hj, fun i hi => ?_,
    Nat.find_spec hsome⟩
  exact Bool.eq_true_of_not_eq_false (Nat.find_min hsome hi)

theorem FirstFree.unique {k : Nat} (hj : FirstFree taken m n j) (hk : FirstFree taken m n k) :
    j = k := by
  rcases Nat.lt_trichotomy j k with hlt | heq | hlt
  · exact absurd (hk.before j hlt) (Bool.eq_false_iff.mp hj.free)
  · exact heq
  · exact absurd (hj.before k hlt) (Bool.eq_false_iff.mp hk.free)

theorem firstFree_zero (hn : n < m) : FirstFree taken m n 0 ↔ taken n = false := by
  constructor
  · rintro ⟨-, hfree⟩
    rwa [Nat.add_zero, Nat.mod_eq_of_lt hn] at hfree
  · intro hfree
    refine ⟨nofun, ?_⟩
    rwa [Nat.add_zero, Nat.mod_eq_of_lt hn]

theorem firstFree_succ (hn : n < m) :
    FirstFree taken m n (j + 1) ↔ taken n = true ∧ FirstFree taken m ((n + 1) % m) j := by
  have hshift : ∀ k, ((n + 1) % m + k) % m = (n + (k + 1)) % m := fun k => by
    rw [Nat.mod_add_mod, Nat.add_right_comm, Nat.add_assoc]
  constructor
  · rintro ⟨hbefore, hfree⟩
    refine ⟨?_, fun i hi => ?_, ?_⟩
    · have hhere := hbefore 0 (Nat.succ_pos j)
      rwa [Nat.add_zero, Nat.mod_eq_of_lt hn] at hhere
    · rw [hshift]
      exact hbefore _ (Nat.succ_lt_succ hi)
    · rwa [hshift]
  · rintro ⟨hhere, hbefore, hfree⟩
    refine ⟨fun i hi => ?_, ?_⟩
    · cases i with
      | zero => rwa [Nat.add_zero, Nat.mod_eq_of_lt hn]
      | succ i =>
        rw [← hshift]
        exact hbefore i (Nat.lt_of_succ_lt_succ hi)
    · rwa [← hshift]

/-- The search finds the first free number that is within its reach. -/
theorem firstFree_eq {tries : Nat} (hn : n < m) (h : FirstFree taken m n j) (hj : j ≤ tries) :
    firstFree taken m tries n = (n + j) % m := by
  induction j generalizing n tries with
  | zero =>
    have hfree := (firstFree_zero hn).mp h
    rw [Nat.add_zero, Nat.mod_eq_of_lt hn]
    cases tries with
    | zero => rfl
    | succ tries => rw [firstFree, hfree, if_neg Bool.false_ne_true]
  | succ j ih =>
    obtain ⟨tries, rfl⟩ := Nat.exists_eq_add_of_le' hj
    obtain ⟨htaken, hrest⟩ := (firstFree_succ hn).mp h
    rw [← Nat.add_assoc, firstFree, if_pos htaken,
      ih (Nat.mod_lt _ (Nat.zero_lt_of_lt hn)) hrest (Nat.le_add_left _ _), Nat.mod_add_mod,
      Nat.add_right_comm, Nat.add_assoc]

end Search

variable {s : TaskStore}

/-- The identifier of a number is that of a task. -/
def isTaken (s : TaskStore) (n : Nat) : Bool :=
  s.contains (s.config.idStrategy.idOf n)

/-- The number is among those that the search for an identifier goes through. -/
def Reaches (s : TaskStore) (n : Nat) : Prop :=
  match s.config.idStrategy with
  | .random => ∃ drawn ∈ s.draws s.drawn, drawn.toNat = n
  | .sequential _ => n < s.config.idStrategy.modulus

/-- The identifier of one of these numbers is free, so that the search comes to an end. -/
def HasRoom (s : TaskStore) : Prop :=
  ∃ n, s.Reaches n ∧ s.isTaken n = false

/-- The counter is one of the numbers that identifiers are made of. -/
def InRange (s : TaskStore) : Prop :=
  s.sequence < s.config.idStrategy.modulus

/-- How many tasks have an identifier as the store makes them. -/
def numbered (s : TaskStore) : Nat :=
  s.tasks.countP fun t => s.config.idStrategy.Makes t.id

theorem numbered_le_size (s : TaskStore) : s.numbered ≤ s.size :=
  s.length_tasks ▸ List.countP_le_length

/-- Of the next numbers, one more than there are tasks with such an identifier, one is free: there
are not enough tasks to take them all. -/
theorem exists_free_of_numbered_lt (hnumbered : s.numbered < s.config.idStrategy.modulus)
    (n : Nat) :
    ∃ j ≤ s.numbered, s.isTaken ((n + j) % s.config.idStrategy.modulus) = false := by
  generalize hcount : s.numbered = count at hnumbered ⊢
  generalize hstrategy : s.config.idStrategy = strategy at hnumbered ⊢
  by_contra hall
  push Not at hall
  let idAt (j : Nat) : String := strategy.idOf ((n + j) % strategy.modulus)
  let ids : List String := (s.tasks.filter fun t => strategy.Makes t.id).map Task.id
  have hmaps : ∀ j ∈ Finset.range (count + 1), idAt j ∈ ids.toFinset := by
    intro j hj
    have htaken := hall j (Nat.lt_succ_iff.mp (Finset.mem_range.mp hj))
    rw [isTaken, hstrategy, ne_eq, Bool.not_eq_false] at htaken
    obtain ⟨t, ht, hid⟩ : ∃ t ∈ s.tasks, t.id = idAt j := contains_iff.mp htaken
    have hmakes : strategy.Makes t.id :=
      ⟨_, Nat.mod_lt _ (Nat.zero_lt_of_lt hnumbered), hid.symm⟩
    rw [List.mem_toFinset, ← hid]
    exact List.mem_map_of_mem (List.mem_filter.mpr ⟨ht, decide_eq_true hmakes⟩)
  have hinj : Set.InjOn idAt (Finset.range (count + 1)) := by
    intro i hi j hj hij
    have hmod : i % strategy.modulus = j % strategy.modulus :=
      Nat.ModEq.add_left_cancel' n (strategy.idOf_injective hij)
    rw [Finset.coe_range, Set.mem_Iio] at hi hj
    rwa [Nat.mod_eq_of_lt (by omega), Nat.mod_eq_of_lt (by omega)] at hmod
  have hcard : count + 1 ≤ count := calc
    count + 1 = (Finset.range (count + 1)).card := (Finset.card_range _).symm
    _ ≤ ids.toFinset.card := Finset.card_le_card_of_injOn idAt hmaps hinj
    _ ≤ ids.length := List.toFinset_card_le _
    _ = count := by
      rw [List.length_map, ← List.countP_eq_length_filter, ← hcount, numbered, hstrategy]
  exact Nat.not_succ_le_self _ hcard

variable {stem : String}

theorem reaches_iff (hstem : s.config.idStrategy = .sequential stem) {n : Nat} :
    s.Reaches n ↔ n < s.config.idStrategy.modulus := by
  rw [Reaches, hstem]

/-- A free number is among the next ones, one more than there are tasks with such an identifier. -/
theorem HasRoom.exists_free (room : s.HasRoom) (hstem : s.config.idStrategy = .sequential stem)
    {n : Nat} (hn : n < s.config.idStrategy.modulus) :
    ∃ j ≤ s.numbered, s.isTaken ((n + j) % s.config.idStrategy.modulus) = false := by
  rcases Nat.lt_or_ge s.numbered s.config.idStrategy.modulus with hnumbered | hnumbered
  · exact exists_free_of_numbered_lt hnumbered n
  · obtain ⟨k, hk, hfree⟩ := room
    rw [reaches_iff hstem] at hk
    -- Once around, every number comes up.
    generalize s.config.idStrategy.modulus = m at *
    refine ⟨(k + m - n) % m, (Nat.le_of_lt (Nat.mod_lt _ (by omega))).trans hnumbered, ?_⟩
    rwa [Nat.add_mod_mod, show n + (k + m - n) = k + m by omega, Nat.add_mod_right,
      Nat.mod_eq_of_lt hk]

/-- Of the numbers that are drawn, the first whose identifier is free is taken. -/
theorem mint_random (hrandom : s.config.idStrategy = .random) :
    s.mint.1 = s.config.idStrategy.idOf
      (((s.draws s.drawn).find? fun n => !s.isTaken n.toNat).getD 0).toNat := by
  have htaken : s.isTaken = fun n => s.contains (s.config.idStrategy.idOf n) := rfl
  rw [mint, htaken, hrandom]

/-- The search goes on from the counter. -/
theorem mint_sequential (hstem : s.config.idStrategy = .sequential stem) :
    s.mint =
      let n := firstFree s.isTaken s.config.idStrategy.modulus s.size s.sequence
      (s.config.idStrategy.idOf n,
        { s with sequence := (n + 1) % s.config.idStrategy.modulus }) := by
  have htaken : s.isTaken = fun n => s.contains (s.config.idStrategy.idOf n) := rfl
  rw [mint, htaken]
  split
  · next heq => cases heq.symm.trans hstem
  · rfl

/-- **A new identifier is free.** -/
theorem contains_mint (range : s.InRange) (room : s.HasRoom) : s.contains s.mint.1 = false := by
  cases hstrategy : s.config.idStrategy with
  | random =>
    obtain ⟨_, hreached, hfree⟩ := room
    rw [Reaches, hstrategy] at hreached
    obtain ⟨n, hn, rfl⟩ := hreached
    have hsome : ((s.draws s.drawn).find? fun n => !s.isTaken n.toNat).isSome = true :=
      List.find?_isSome.mpr ⟨n, hn, by rw [hfree]; rfl⟩
    obtain ⟨k, hfind⟩ := Option.isSome_iff_exists.mp hsome
    have hfree : s.isTaken k.toNat = false := by simpa using List.find?_some hfind
    rw [mint_random hstrategy, hfind]
    exact hfree
  | sequential stem =>
    obtain ⟨j, hj, hfirst⟩ := exists_firstFree (room.exists_free hstrategy range)
    rw [mint_sequential hstrategy, firstFree_eq range hfirst (hj.trans s.numbered_le_size)]
    exact hfirst.free

theorem InRange.mint (range : s.InRange) : s.mint.2.InRange := by
  cases hstrategy : s.config.idStrategy with
  | random =>
    have hcounter : s.mint.2.sequence = s.sequence := by rw [TaskStore.mint, hstrategy]
    rwa [InRange, hcounter, s.mint_frame.1]
  | sequential stem =>
    rw [mint_sequential hstrategy]
    exact Nat.mod_lt _ (IdStrategy.modulus_pos _)

end TaskStore
end Switchboard
