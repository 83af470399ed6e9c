import Mathlib.Data.List.Pairwise
import Switchboard.Proofs.Task.Frames

/-!
# How long the search for a new identifier takes

Behind a stem the identifiers are counted up, and the counter wraps around. `TaskStore.Mints` is the
search as a loop without a bound: each round takes the number of the counter and moves the counter
on, and the first identifier that no task has ends it. It ends in every store that has fewer tasks
than there are numbers, and what `TaskStore.mint` hands out is what it finds.

Every round uses a number up, also one whose identifier is taken. So the identifiers that a run
gives out belong to different numbers as long as the counter has not been once around
(`TaskStore.CountedRun.nodup_minted`), whatever has been removed in the meantime.
-/

namespace Switchboard

/-! ### Events that give out identifiers -/

/-- The identifier that is given out. -/
def TaskEvent.minted? : TaskEvent → Option String
  | created t => some t.id
  | moved _ _ _ _ | stored _ _ | removed _ => none

/-- The identifiers that are given out. -/
def minted (h : List TaskEvent) : List String :=
  h.filterMap TaskEvent.minted?

theorem minted_append (h h' : List TaskEvent) : minted (h ++ h') = minted h ++ minted h' :=
  List.filterMap_append

theorem mem_minted {h : List TaskEvent} {id : String} :
    id ∈ minted h ↔ ∃ t, .created t ∈ h ∧ t.id = id := by
  rw [minted, List.mem_filterMap]
  constructor
  · rintro ⟨e, he, hid⟩
    cases e with
    | created t => exact ⟨t, he, Option.some.inj hid⟩
    | moved | stored | removed => cases hid
  · rintro ⟨t, ht, rfl⟩
    exact ⟨_, ht, rfl⟩

namespace TaskStore

/-! ### Round by round -/

/-- Whether the identifier of a number is that of a task. -/
def holds (s : TaskStore) (stem : String) (n : Nat) : Bool :=
  s.contains (stem ++ toString n)

/-- The store after so many rounds of the search. -/
def skip (s : TaskStore) (rounds : Nat) : TaskStore :=
  { s with sequence := (s.sequence + rounds) % UInt64.size }

/-- The identifier that is tried after so many rounds. -/
def candidate (s : TaskStore) (stem : String) (rounds : Nat) : String :=
  stem ++ toString ((s.sequence + rounds) % UInt64.size)

/-- Giving out an identifier behind a stem, with the number of rounds that this takes. -/
inductive Mints (stem : String) : TaskStore → Nat → String → TaskStore → Prop
  | free {s : TaskStore} (hfree : s.contains (stem ++ toString s.sequence) = false) :
      Mints stem s 1 (stem ++ toString s.sequence) (s.skip 1)
  | taken {s s' : TaskStore} {rounds : Nat} {id : String}
      (htaken : s.contains (stem ++ toString s.sequence) = true)
      (rest : Mints stem (s.skip 1) rounds id s') : Mints stem s (rounds + 1) id s'

variable {s s₀ s' : TaskStore} {stem id : String} {h : List TaskEvent} {j k rounds : Nat}

theorem sequence_skip (s : TaskStore) (j : Nat) :
    (s.skip j).sequence = (s.sequence + j) % UInt64.size := rfl

theorem skip_skip (s : TaskStore) (j k : Nat) : (s.skip j).skip k = s.skip (j + k) := by
  simp only [skip, Nat.mod_add_mod, Nat.add_assoc]

theorem candidate_skip (s : TaskStore) (stem : String) (j k : Nat) :
    (s.skip j).candidate stem k = s.candidate stem (j + k) := by
  simp only [candidate, skip, Nat.mod_add_mod, Nat.add_assoc]

theorem candidate_zero (range : s.sequence < UInt64.size) :
    s.candidate stem 0 = stem ++ toString s.sequence := by
  rw [candidate, Nat.add_zero, Nat.mod_eq_of_lt range]

theorem sequence_skip_lt (s : TaskStore) (j : Nat) : (s.skip j).sequence < UInt64.size :=
  Nat.mod_lt _ (Nat.two_pow_pos 64)

/-- As many rounds as there are numbers try different identifiers. -/
theorem candidate_inj (hj : j < UInt64.size) (hk : k < UInt64.size)
    (heq : s.candidate stem j = s.candidate stem k) : j = k := by
  have hmod : j % UInt64.size = k % UInt64.size :=
    Nat.ModEq.add_left_cancel' s.sequence ((IdStrategy.sequential stem).idOf_injective heq)
  rwa [Nat.mod_eq_of_lt hj, Nat.mod_eq_of_lt hk] at hmod

/-- The loop ends with the first identifier that is free. -/
theorem mints_of_firstFree (range : s.sequence < UInt64.size)
    (hfirst : FirstFree (s.holds stem) UInt64.size s.sequence j) :
    s.Mints stem (j + 1) (s.candidate stem j) (s.skip (j + 1)) := by
  induction j generalizing s with
  | zero =>
    rw [candidate_zero range]
    exact .free ((firstFree_zero range).mp hfirst)
  | succ j ih =>
    obtain ⟨htaken, hrest⟩ := (firstFree_succ range).mp hfirst
    have hloop := ih (s.sequence_skip_lt 1) hrest
    rw [candidate_skip, skip_skip, Nat.add_comm 1, Nat.add_comm 1] at hloop
    exact .taken htaken hloop

/-- The loop ends in no other way. -/
theorem Mints.exists_firstFree (loop : s.Mints stem rounds id s')
    (range : s.sequence < UInt64.size) :
    ∃ j, FirstFree (s.holds stem) UInt64.size s.sequence j ∧ rounds = j + 1 ∧
      id = s.candidate stem j ∧ s' = s.skip (j + 1) := by
  induction loop with
  | free hfree =>
    exact ⟨0, (firstFree_zero range).mpr hfree, rfl, (candidate_zero range).symm, rfl⟩
  | @taken s _ _ _ htaken _ ih =>
    obtain ⟨j, hrest, rfl, rfl, rfl⟩ := ih (s.sequence_skip_lt 1)
    refine ⟨j + 1, (firstFree_succ range).mpr ⟨htaken, hrest⟩, rfl, ?_, ?_⟩
    · rw [candidate_skip, Nat.add_comm 1]
    · rw [skip_skip, Nat.add_comm 1]

/-! ### The search and its bound -/

theorem modulus_of_sequential (hstem : s.config.idStrategy = .sequential stem) :
    s.config.idStrategy.modulus = UInt64.size := by
  rw [hstem]
  rfl

theorem isTaken_of_sequential (hstem : s.config.idStrategy = .sequential stem) :
    s.isTaken = s.holds stem := by
  funext n
  rw [isTaken, hstem]
  rfl

theorem hasRoom_of_size_lt (hstem : s.config.idStrategy = .sequential stem)
    (hsize : s.size < UInt64.size) : s.HasRoom := by
  rw [← modulus_of_sequential hstem] at hsize
  obtain ⟨j, -, hfree⟩ := exists_free_of_numbered_lt (s.numbered_le_size.trans_lt hsize) 0
  exact ⟨_, (reaches_iff hstem).mpr (Nat.mod_lt _ (IdStrategy.modulus_pos _)), hfree⟩

theorem hasRoom_of_firstFree (hstem : s.config.idStrategy = .sequential stem)
    (hfirst : FirstFree (s.holds stem) UInt64.size s.sequence j) : s.HasRoom := by
  rw [← isTaken_of_sequential hstem, ← modulus_of_sequential hstem] at hfirst
  exact ⟨_, (reaches_iff hstem).mpr (Nat.mod_lt _ (IdStrategy.modulus_pos _)), hfirst.free⟩

/-- One of the next numbers is the first that is free. -/
theorem HasRoom.exists_firstFree (room : s.HasRoom)
    (hstem : s.config.idStrategy = .sequential stem) (range : s.sequence < UInt64.size) :
    ∃ j ≤ s.numbered, FirstFree (s.holds stem) UInt64.size s.sequence j := by
  have hmodulus := modulus_of_sequential hstem
  have hfree := room.exists_free hstem (hmodulus ▸ range)
  rw [hmodulus, isTaken_of_sequential hstem] at hfree
  exact TaskStore.exists_firstFree hfree

/-- What is handed out is the first identifier that is free. -/
theorem mint_of_firstFree (hstem : s.config.idStrategy = .sequential stem)
    (range : s.sequence < UInt64.size)
    (hfirst : FirstFree (s.holds stem) UInt64.size s.sequence j) :
    s.mint = (s.candidate stem j, s.skip (j + 1)) := by
  obtain ⟨i, hi, hfirst'⟩ := (hasRoom_of_firstFree hstem hfirst).exists_firstFree hstem range
  obtain rfl : j = i := hfirst.unique hfirst'
  have hsearch : firstFree (s.holds stem) UInt64.size s.size s.sequence =
      (s.sequence + j) % UInt64.size :=
    firstFree_eq range hfirst (hi.trans s.numbered_le_size)
  rw [mint_sequential hstem, isTaken_of_sequential hstem, modulus_of_sequential hstem, hstem]
  simp only [hsearch, IdStrategy.idOf, candidate, skip, Nat.mod_add_mod, Nat.add_assoc]

/-- **The loop ends with what is handed out.** -/
theorem mints_mint (hstem : s.config.idStrategy = .sequential stem)
    (range : s.sequence < UInt64.size)
    (hfirst : FirstFree (s.holds stem) UInt64.size s.sequence j) :
    s.Mints stem (j + 1) s.mint.1 s.mint.2 := by
  rw [mint_of_firstFree hstem range hfirst]
  exact mints_of_firstFree range hfirst

/-- It ends in no other way, and with no other number of rounds. -/
theorem mints_iff (hstem : s.config.idStrategy = .sequential stem)
    (range : s.sequence < UInt64.size)
    (hfirst : FirstFree (s.holds stem) UInt64.size s.sequence j) :
    s.Mints stem rounds id s' ↔ rounds = j + 1 ∧ (id, s') = s.mint := by
  constructor
  · intro loop
    obtain ⟨i, hi, rfl, rfl, rfl⟩ := loop.exists_firstFree range
    rw [hi.unique hfirst, mint_of_firstFree hstem range hfirst]
    exact ⟨rfl, rfl⟩
  · rintro ⟨rfl, heq⟩
    have hloop := mints_mint hstem range hfirst
    rwa [← heq] at hloop

end TaskStore

/-! ### Other uses -/

namespace TaskChange

variable {s : TaskStore} {c : TaskChange} {id : String}

/-- Only new tasks move the counter. -/
theorem sequence_apply (hc : ∀ now ttl poll, c ≠ .create now ttl poll) :
    (c.apply s).sequence = s.sequence := by
  cases c with
  | create now ttl poll => exact absurd rfl (hc now ttl poll)
  | transition now id status message =>
    rw [apply]
    by_cases hlive : s.Live id
    · rw [TaskStore.update_of_live hlive]
      rfl
    · rw [TaskStore.update_of_not_live hlive]
  | setResult id v =>
    rw [apply, TaskStore.setResult]
    split <;> rfl
  | delete | sweep => rfl

theorem minted_events (hc : ∀ now ttl poll, c ≠ .create now ttl poll) :
    minted (c.events s) = [] := by
  cases c with
  | create now ttl poll => exact absurd rfl (hc now ttl poll)
  | transition now id status message =>
    rw [events]
    split <;> rfl
  | setResult id v =>
    rw [events]
    split <;> rfl
  | delete id =>
    rw [events]
    split <;> rfl
  | sweep now =>
    rw [events, minted, List.filterMap_map]
    exact List.filterMap_eq_nil_iff.mpr fun _ _ => rfl

/-- What is removed was there, and is gone. -/
theorem of_removed (h : .removed id ∈ c.events s) :
    s.contains id = true ∧ (c.apply s).get? id = none := by
  cases c with
  | create now ttl poll => simp [events] at h
  | transition now id' status message =>
    rw [events] at h
    split at h <;> simp at h
  | setResult id' v =>
    rw [events] at h
    split at h <;> simp at h
  | delete id' =>
    rw [events] at h
    split at h
    · next hthere =>
      obtain rfl : id = id' := by simpa using h
      exact ⟨hthere, (s.get?_delete id id).trans (if_pos rfl)⟩
    · simp at h
  | sweep now =>
    have hmem : id ∈ s.expired now := by simpa [events] using h
    obtain ⟨t, hget, hold⟩ := (s.mem_expired).mp hmem
    refine ⟨by rw [TaskStore.contains, hget]; rfl, ?_⟩
    rw [apply, TaskStore.get?_sweep, hget, Option.filter_some_neg]
    simpa using Task.isExpired_iff.mpr hold

end TaskChange

namespace TaskUse

variable {s : TaskStore} {use : TaskUse} {id : String}

theorem config_apply (s : TaskStore) (use : TaskUse) : (use.apply s).config = s.config := by
  rw [apply_eq]
  cases use.change? with
  | none => rfl
  | some c => exact c.config_apply s

theorem sequence_apply (huse : ∀ now ttl poll, use.change? ≠ some (.create now ttl poll)) :
    (use.apply s).sequence = s.sequence := by
  rw [apply_eq]
  cases hc : use.change? with
  | none => rfl
  | some c => exact TaskChange.sequence_apply fun now ttl poll heq => huse now ttl poll (heq ▸ hc)

theorem minted_events (huse : ∀ now ttl poll, use.change? ≠ some (.create now ttl poll)) :
    minted (use.events s) = [] := by
  rw [events]
  cases hc : use.change? with
  | none => rfl
  | some c => exact TaskChange.minted_events fun now ttl poll heq => huse now ttl poll (heq ▸ hc)

theorem of_removed (h : .removed id ∈ use.events s) :
    s.contains id = true ∧ (use.apply s).get? id = none := by
  rw [apply_eq]
  rw [events] at h
  cases hc : use.change? with
  | none =>
    rw [hc] at h
    cases h
  | some c =>
    rw [hc] at h
    exact TaskChange.of_removed h

/-- Nothing is there that was not created. -/
theorem get?_apply_of_not_minted (hget : s.get? id = none)
    (hnew : id ∉ minted (use.events s)) : (use.apply s).get? id = none := by
  have hfresh : ∀ t, .created t ∈ use.events s → t.id ≠ id := fun t ht hid =>
    hnew (mem_minted.mpr ⟨t, ht, hid⟩)
  rw [events] at hfresh
  rw [apply_eq]
  cases hc : use.change? with
  | none => exact hget
  | some c =>
    rw [hc] at hfresh
    have hdead : ¬ s.Live id := by
      rintro ⟨t, ht, -⟩
      cases ht.symm.trans hget
    rcases TaskChange.get?_apply_of_not_live hdead hfresh with hnone | hsame
    · exact hnone
    · exact hsame.trans hget

end TaskUse

/-! ### Runs -/

namespace TaskStore

variable {s s₀ : TaskStore} {stem id : String} {h : List TaskEvent} {k : Nat}

theorem Run.config_eq (run : Run s₀ h s) : s.config = s₀.config := by
  induction run with
  | start => rfl
  | step _ use _ ih => exact (use.config_apply _).trans ih

theorem Run.get?_of_not_minted (run : Run s₀ h s) (hid : s₀.get? id = none)
    (hnew : id ∉ minted h) : s.get? id = none := by
  induction run with
  | start => exact hid
  | step _ use _ ih =>
    rw [minted_append, List.mem_append, not_or] at hnew
    exact TaskUse.get?_apply_of_not_minted (ih hnew.1) hnew.2

/-- What is removed has been created before, and is not there until it is created anew. -/
theorem Run.minted_of_removed (run : Run s₀ h s) (hid : s₀.get? id = none)
    {before after : List TaskEvent} (hsplit : h = before ++ .removed id :: after) :
    id ∈ minted before ∧ (id ∉ minted after → s.get? id = none) := by
  induction run generalizing after with
  | start => simp at hsplit
  | @step h s run use _ ih =>
    have hlast : ∀ since rest, use.events s = since ++ .removed id :: rest →
        id ∈ minted h ∧ (use.apply s).get? id = none := by
      intro since rest hevents
      obtain ⟨hthere, hgone⟩ := TaskUse.of_removed (hevents ▸ List.mem_append_right since
        List.mem_cons_self : .removed id ∈ use.events s)
      refine ⟨Decidable.byContradiction fun hnew => ?_, hgone⟩
      rw [contains, run.get?_of_not_minted hid hnew] at hthere
      cases hthere
    rcases List.append_eq_append_iff.mp hsplit with ⟨since, rfl, hevents⟩ | ⟨rest, rfl, hrest⟩
    · obtain ⟨hmem, hgone⟩ := hlast since after hevents
      rw [minted_append]
      exact ⟨List.mem_append_left _ hmem, fun _ => hgone⟩
    · cases rest with
      | nil =>
        obtain ⟨hmem, hgone⟩ := hlast [] after hrest.symm
        rw [List.append_nil] at hmem
        exact ⟨hmem, fun _ => hgone⟩
      | cons e rest =>
        rw [List.cons_append] at hrest
        obtain ⟨rfl, rfl⟩ := List.cons.inj hrest
        obtain ⟨hmem, hgone⟩ := ih rfl
        refine ⟨hmem, fun hnew => ?_⟩
        rw [minted_append, List.mem_append, not_or] at hnew
        exact TaskUse.get?_apply_of_not_minted (hgone hnew.1) hnew.2

/-- What is removed stays away, if no identifier is given out twice. -/
theorem Run.gone_of_removed (run : Run s₀ h s) (hnodup : (minted h).Nodup)
    (hid : s₀.get? id = none) {before after : List TaskEvent}
    (hsplit : h = before ++ .removed id :: after) :
    id ∈ minted before ∧ id ∉ minted after ∧ s.get? id = none := by
  obtain ⟨hmem, hgone⟩ := run.minted_of_removed hid hsplit
  have hnew : id ∉ minted after := fun hagain => by
    rw [hsplit, minted_append, List.nodup_append] at hnodup
    exact hnodup.2.2 id hmem id hagain rfl
  exact ⟨hmem, hnew, hgone hnew⟩

/-- Any uses of a store, with what they do, and with how many rounds the searches for new
identifiers take in total. -/
inductive CountedRun (stem : String) (s₀ : TaskStore) : List TaskEvent → Nat → TaskStore → Prop
  | start : CountedRun stem s₀ [] 0 s₀
  | create {h : List TaskEvent} {k rounds : Nat} {s : TaskStore} (run : CountedRun stem s₀ h k s)
      (use : TaskUse) {now : Timestamp} {ttl poll : Option Duration}
      (huse : use.change? = some (.create now ttl poll))
      (loop : s.Mints stem rounds s.mint.1 s.mint.2) :
      CountedRun stem s₀ (h ++ use.events s) (k + rounds) (use.apply s)
  | other {h : List TaskEvent} {k : Nat} {s : TaskStore} (run : CountedRun stem s₀ h k s)
      (use : TaskUse) (huse : ∀ now ttl poll, use.change? ≠ some (.create now ttl poll)) :
      CountedRun stem s₀ (h ++ use.events s) k (use.apply s)

/-- What a creation does to the counter and to the history. -/
theorem create_frame {use : TaskUse} {now : Timestamp} {ttl poll : Option Duration}
    (huse : use.change? = some (.create now ttl poll)) :
    (use.apply s).sequence = s.mint.2.sequence ∧ minted (use.events s) = [s.mint.1] := by
  rw [TaskUse.apply_eq, TaskUse.events, huse]
  exact ⟨rfl, rfl⟩

/-- **Every identifier comes from a round of its own.** -/
theorem CountedRun.exists_offsets (run : CountedRun stem s₀ h k s)
    (range : s₀.sequence < UInt64.size) :
    s.sequence = (s₀.skip k).sequence ∧
      ∃ offsets : List Nat, offsets.Pairwise (· < ·) ∧ (∀ i ∈ offsets, i < k) ∧
        minted h = offsets.map (s₀.candidate stem) := by
  induction run with
  | start => exact ⟨(Nat.mod_eq_of_lt range).symm, [], .nil, nofun, rfl⟩
  | @create h k rounds s _ use _ _ _ huse loop ih =>
    obtain ⟨hsequence, offsets, hsorted, hbound, hminted⟩ := ih
    have hrange : s.sequence < UInt64.size := hsequence ▸ s₀.sequence_skip_lt k
    have hcandidate : ∀ i, s.candidate stem i = s₀.candidate stem (k + i) := fun i => by
      rw [← candidate_skip, candidate, hsequence, candidate]
    obtain ⟨j, -, rfl, hid, hs⟩ := loop.exists_firstFree hrange
    obtain ⟨hcounter, hnew⟩ := create_frame (s := s) huse
    refine ⟨?_, offsets ++ [k + j], ?_, ?_, ?_⟩
    · rw [hcounter, hs, sequence_skip, hsequence, ← sequence_skip, skip_skip]
    · refine List.pairwise_append.mpr ⟨hsorted, List.pairwise_singleton _ _, fun i hi i' hi' => ?_⟩
      rw [List.mem_singleton.mp hi']
      exact Nat.lt_add_right j (hbound i hi)
    · intro i hi
      rcases List.mem_append.mp hi with hi | hi
      · exact Nat.lt_add_right _ (hbound i hi)
      · rw [List.mem_singleton.mp hi]
        exact Nat.lt_succ_self _
    · rw [minted_append, hminted, hnew, hid, hcandidate, List.map_append]
      rfl
  | other _ _ huse ih =>
    rw [TaskUse.sequence_apply huse, minted_append, TaskUse.minted_events huse, List.append_nil]
    exact ih

theorem CountedRun.sequence_lt (run : CountedRun stem s₀ h k s)
    (range : s₀.sequence < UInt64.size) : s.sequence < UInt64.size := by
  rw [(run.exists_offsets range).1]
  exact s₀.sequence_skip_lt k

/-- **No identifier is given out twice** before the counter has been once around. -/
theorem CountedRun.nodup_minted (run : CountedRun stem s₀ h k s)
    (range : s₀.sequence < UInt64.size) (hk : k ≤ UInt64.size) : (minted h).Nodup := by
  obtain ⟨-, offsets, hsorted, hbound, hminted⟩ := run.exists_offsets range
  have hnodup : offsets.Nodup := hsorted.imp Nat.ne_of_lt
  rw [hminted]
  refine List.Nodup.map_on (fun i hi j hj heq => ?_) hnodup
  exact candidate_inj ((hbound i hi).trans_le hk) ((hbound j hj).trans_le hk) heq

theorem CountedRun.run (counted : CountedRun stem s₀ h k s) (range : s₀.sequence < UInt64.size)
    (hstem : s₀.config.idStrategy = .sequential stem) : Run s₀ h s := by
  induction counted with
  | start => exact .start
  | create counted use huse loop ih =>
    obtain ⟨j, hfirst, -⟩ := loop.exists_firstFree (counted.sequence_lt range)
    exact ih.step use fun _ _ _ _ => hasRoom_of_firstFree (ih.config_eq ▸ hstem) hfirst
  | other _ use huse ih => exact ih.step use fun now ttl poll hc => absurd hc (huse now ttl poll)

/-- The rounds of every run can be counted. -/
theorem Run.exists_counted (run : Run s₀ h s) (range : s₀.sequence < UInt64.size)
    (hstem : s₀.config.idStrategy = .sequential stem) : ∃ k, CountedRun stem s₀ h k s := by
  induction run with
  | start => exact ⟨0, .start⟩
  | step run use room ih =>
    obtain ⟨k, counted⟩ := ih
    by_cases huse : ∃ now ttl poll, use.change? = some (.create now ttl poll)
    · obtain ⟨now, ttl, poll, huse⟩ := huse
      have hrange := counted.sequence_lt range
      have hstem' := run.config_eq ▸ hstem
      obtain ⟨j, -, hfirst⟩ := (room now ttl poll huse).exists_firstFree hstem' hrange
      exact ⟨_, counted.create use huse (mints_mint hstem' hrange hfirst)⟩
    · exact ⟨k, counted.other use fun now ttl poll hc => huse ⟨now, ttl, poll, hc⟩⟩

/-- **A new identifier is the first one that is free, and none comes back.**

* Whatever the identifiers of its tasks and whatever its counter: in a store of fewer tasks than
  there are numbers the search ends. It skips at most as many identifiers as there are tasks whose
  identifier is a number behind the stem, all of them taken; it ends with the next one, which is
  free, and leaves the counter just behind its number. The loop does this in just so many rounds,
  and nothing else.
* The rounds of every run can be counted. As long as they do not go more than once around, all
  identifiers that are given out are different. A task that is removed was created before, unless
  it was there from the start; its identifier is not given out again, and no task has it. -/
theorem mints_first_free (stem : String) :
    (∀ s : TaskStore, s.config.idStrategy = .sequential stem → s.sequence < UInt64.size →
      s.size < UInt64.size →
      ∃ j ≤ s.numbered,
        (∀ i < j, s.contains (s.candidate stem i) = true) ∧
        s.contains (s.candidate stem j) = false ∧
        s.mint = (s.candidate stem j, s.skip (j + 1)) ∧
        ∀ rounds id s', s.Mints stem rounds id s' ↔ rounds = j + 1 ∧ (id, s') = s.mint) ∧
    ∀ s₀ : TaskStore, s₀.config.idStrategy = .sequential stem → s₀.sequence < UInt64.size →
      (∀ h s, Run s₀ h s → ∃ k, CountedRun stem s₀ h k s) ∧
      ∀ h k s, CountedRun stem s₀ h k s → k ≤ UInt64.size →
        (minted h).Nodup ∧
        ∀ before id after, h = before ++ .removed id :: after → s₀.contains id = false →
          id ∈ minted before ∧ id ∉ minted after ∧ s.contains id = false := by
  refine ⟨fun s hstem range hsize => ?_, fun s₀ hstem range =>
    ⟨fun h s run => run.exists_counted range hstem, fun h k s counted hk => ?_⟩⟩
  · obtain ⟨j, hj, hfirst⟩ := (hasRoom_of_size_lt hstem hsize).exists_firstFree hstem range
    exact ⟨j, hj, hfirst.before, hfirst.free, mint_of_firstFree hstem range hfirst,
      fun _ _ _ => mints_iff hstem range hfirst⟩
  · have hnodup := counted.nodup_minted range hk
    refine ⟨hnodup, fun before id after hsplit hid => ?_⟩
    rw [contains, Option.isSome_eq_false_iff, Option.isNone_iff_eq_none] at hid
    obtain ⟨hmem, hnew, hgone⟩ := (counted.run range hstem).gone_of_removed hnodup hid hsplit
    refine ⟨hmem, hnew, ?_⟩
    rw [contains, hgone]
    rfl

/-- The counter stands at the last number, and the search goes around: two identifiers are taken,
and one that only looks like a number does not count. The task that is created under the third one
is removed, and the next task has another identifier. -/
theorem mints_first_free_wrapped :
    ∃ s₀ : TaskStore, s₀.sequence = UInt64.size - 1 ∧ s₀.size = 3 ∧ s₀.numbered = 2 ∧
      (∃ j ≤ 2, s₀.mint = (s₀.candidate "t" j, s₀.skip (j + 1))) ∧ s₀.mint.1 = "t1" ∧
      ∃ h s, CountedRun "t" s₀ h 4 s ∧ minted h = ["t1", "t2"] ∧ (minted h).Nodup ∧
        s.contains "t1" = false := by
  let task (id : String) : Task :=
    { id, status := .working, createdAt := ⟨0, 0⟩, lastUpdatedAt := ⟨0, 0⟩ }
  let s₀ : TaskStore :=
    { config := { idStrategy := .sequential "t" }
      draws := fun _ => []
      table := ((Ordered.empty.insert "t0" (task "t0")).insert "t00" (task "t00")).insert
        "t18446744073709551615" (task "t18446744073709551615")
      keyed := ((Task.Keyed.empty.insert (task "t0")).insert (task "t00")).insert
        (task "t18446744073709551615")
      sequence := UInt64.size - 1 }
  let create : TaskUse := .create ⟨0, 0⟩ none none
  let s₁ : TaskStore := create.apply s₀
  let s₂ : TaskStore := (TaskUse.delete "t1").apply s₁
  have hfree : FirstFree (s₀.holds "t") UInt64.size s₀.sequence 2 := ⟨by decide, by decide⟩
  have hfree₂ : FirstFree (s₂.holds "t") UInt64.size s₂.sequence 0 := ⟨nofun, by decide⟩
  have hloop : s₀.Mints "t" 3 s₀.mint.1 s₀.mint.2 :=
    mints_mint rfl (by decide) hfree
  have hloop₂ : s₂.Mints "t" 1 s₂.mint.1 s₂.mint.2 :=
    mints_mint rfl (by decide) hfree₂
  have run : CountedRun "t" s₀
      (([] ++ create.events s₀) ++ (TaskUse.delete "t1").events s₁ ++ create.events s₂) 4 _ :=
    ((CountedRun.start.create create rfl hloop).other (.delete "t1") nofun).create create rfl hloop₂
  obtain ⟨hstore, hrun⟩ := mints_first_free "t"
  obtain ⟨j, hj, -, -, hanswer, -⟩ := hstore s₀ rfl (by decide) (by decide)
  obtain ⟨hnodup, hremoved⟩ := (hrun s₀ rfl (by decide)).2 _ _ _ run (by decide)
  have hnumbered : s₀.numbered = 2 := by decide
  have hdelete : (TaskUse.delete "t1").events s₁ = [.removed "t1"] := if_pos (by decide)
  refine ⟨s₀, rfl, by decide, hnumbered, ⟨j, hnumbered ▸ hj, hanswer⟩, by decide, _, _, run,
    by decide, hnodup, ?_⟩
  refine (hremoved (create.events s₀) "t1" (create.events s₂) ?_ (by decide)).2.2
  rw [hdelete, List.append_assoc]
  rfl

end TaskStore
end Switchboard
