import Switchboard.Proofs.Json.Integers
import Switchboard.Proofs.Json.Strings

/-!
# Values read back

A value is `Integral` if its numbers are integers of at most 64 bits and the members of its objects
are listed in order, each key once. Such a value, nested at most 127 deep, reads back from its
compact text: `read_bytes`.

The induction is over the value, with what has been read around it: `run_writeOnto` for a value
inside open containers, `run_writeItems` and `run_writeMembers` for the rest of a container.
-/

namespace Switchboard
namespace Json

mutual

/-- All numbers are integers that stay integers, and all members are in order. -/
def Integral : Json → Prop
  | .int n => inRange n
  | .float _ => False
  | .arr items => IntegralItems items
  | .obj members => Members.Sorted members ∧ IntegralMembers members
  | .null | .bool _ | .str _ => True

/-- All items are integral. -/
def IntegralItems : List Json → Prop
  | [] => True
  | v :: vs => Integral v ∧ IntegralItems vs

/-- All members are integral. -/
def IntegralMembers : List (String × Json) → Prop
  | [] => True
  | (_, v) :: ms => Integral v ∧ IntegralMembers ms

end

namespace Members

/-- A key above all others goes to the end. -/
theorem insert_of_forall_lt {k : String} {ms : Members} (h : ∀ m ∈ ms, m.1 < k) (v : Json) :
    insert k v ms = ms ++ [(k, v)] := by
  induction ms with
  | nil => rfl
  | cons m ms ih =>
    have hlt : m.1 < k := h m List.mem_cons_self
    have hne : k ≠ m.1 := fun he => String.lt_irrefl _ (he ▸ hlt)
    have hnot : ¬ k < m.1 := fun hgt => String.lt_irrefl _ (String.lt_trans hlt hgt)
    rw [insert, if_neg hne, if_neg hnot, ih fun x hx => h x (List.mem_cons_of_mem m hx)]
    rfl

theorem Sorted.insert_last {k : String} {v : Json} {ms rest : Members}
    (h : Sorted (ms ++ (k, v) :: rest)) : insert k v ms = ms ++ [(k, v)] :=
  insert_of_forall_lt (fun m hm => (List.pairwise_append.1 h).2.2 m hm _ List.mem_cons_self) v

end Members

namespace Reader

/-! ### Between values -/

theorem run_cons_of_step {s s' : State} {b : UInt8} (h : step s b = .ok s') (bs : List UInt8) :
    run s (b :: bs) = run s' bs := by
  rw [run, h]

theorem closes_writeItems (vs : List Json) (rest : List UInt8) :
    Closes (writeItems vs (93 :: rest)) := by
  cases vs with
  | nil => exact ⟨93, _, rfl, .inr (.inl rfl)⟩
  | cons v vs => exact ⟨44, _, rfl, .inl rfl⟩

theorem closes_writeMembers (ms : List (String × Json)) (rest : List UInt8) :
    Closes (writeMembers ms (125 :: rest)) := by
  cases ms with
  | nil => exact ⟨125, _, rfl, .inr (.inr rfl)⟩
  | cons m ms => exact ⟨44, _, rfl, .inl rfl⟩

/-- The byte of a digit is no blank and closes nothing. -/
theorem digit_byte {c : Char} (hc : c.isDigit = true) :
    isBlank (Char.ofUInt8 c.toUInt8) = false ∧ c.toUInt8 ≠ 93 := by
  have hall : ∀ d < 10, isBlank (Char.ofUInt8 (Nat.digitChar d).toUInt8) = false ∧
      (Nat.digitChar d).toUInt8 ≠ 93 := by decide
  obtain ⟨hlow, hhigh⟩ := (Bool.and_eq_true _ _).mp hc
  have hlow : 48 ≤ c.toNat := of_decide_eq_true hlow
  have hhigh : c.toNat ≤ 57 := of_decide_eq_true hhigh
  have he : c = Nat.digitChar (c.toNat - 48) := by
    refine Char.toNat_inj.1 ?_
    rw [Nat.toNat_digitChar_of_lt_ten (by omega)]
    omega
  rw [he]
  exact hall _ (by omega)

/-- The first byte of a value is no blank and closes nothing. -/
theorem exists_first_byte {v : Json} (hv : v.Integral) (rest : List UInt8) :
    ∃ b bs, v.writeOnto rest = b :: bs ∧ isBlank (Char.ofUInt8 b) = false ∧ b ≠ 93 := by
  cases v with
  | null => exact ⟨110, _, rfl, by decide⟩
  | bool b =>
    cases b with
    | false => exact ⟨102, _, rfl, by decide⟩
    | true => exact ⟨116, _, rfl, by decide⟩
  | int n =>
    rw [writeOnto, writeInt]
    split
    · exact ⟨45, _, rfl, by decide⟩
    · cases hds : Nat.toDigits 10 n.natAbs with
      | nil => exact absurd hds Nat.toDigits_ne_nil
      | cons c cs =>
        have hmem : c ∈ Nat.toDigits 10 n.natAbs := hds ▸ List.mem_cons_self
        exact ⟨_, _, rfl, digit_byte (Nat.isDigit_of_mem_toDigits (by decide) (by decide) hmem)⟩
  | float d => exact hv.elim
  | str s => exact ⟨34, _, rfl, by decide⟩
  | arr items => cases items <;> exact ⟨91, _, rfl, by decide⟩
  | obj members => cases members <;> exact ⟨123, _, rfl, by decide⟩

/-- The first item of an array is read like any value in it. -/
theorem run_firstItem {v : Json} (hv : v.Integral) (stack : List Container) (rest : List UInt8) :
    run ⟨.firstItem, stack⟩ (v.writeOnto rest) =
      run ⟨.value, .array [] :: stack⟩ (v.writeOnto rest) := by
  obtain ⟨b, bs, he, hblank, hb⟩ := exists_first_byte hv rest
  have hclose : Char.ofUInt8 b ≠ ']' := fun h => hb (ofUInt8_inj (b := 93) h)
  have hstep : step ⟨.firstItem, stack⟩ b = step ⟨.value, .array [] :: stack⟩ b := by
    simp [step, between, hblank, hclose]
  rw [he, run, run, hstep]

/-- A key in its quotes and the colon behind it. -/
theorem run_key (members : Members) (stack : List Container) (k : String) (rest : List UInt8) :
    run ⟨.key members {}, stack⟩ ((Text.bytes k).foldr escapeOnto (34 :: 58 :: rest)) =
      run ⟨.value, .object members k :: stack⟩ rest := by
  rw [(inside_key members stack).run_string]
  exact run_cons_of_step rfl rest

/-! ### The induction -/

mutual

/-- **A value is read in the middle of a text**, and the containers around it are as before. -/
theorem run_writeOnto (v : Json) (stack : List Container) (rest : List UInt8) (hv : v.Integral)
    (hd : stack.length + v.depth ≤ maxDepth) (hrest : ∀ n, v = .int n → Closes rest) :
    run ⟨.value, stack⟩ (v.writeOnto rest) = run (deliver v stack) rest := by
  cases v with
  | null => rfl
  | bool b => cases b <;> rfl
  | int n =>
    obtain ⟨t, hpart, ht, hrun⟩ := run_writeInt hv stack
    rw [writeOnto, hrun, run_number ht hpart (hrest n rfl)]
  | float d => exact hv.elim
  | str s => exact (inside_string stack).run_string s rest
  | arr items =>
    rw [depth] at hd
    have hfit : stack.length < maxDepth := by omega
    have hopen : step ⟨.value, stack⟩ 91 = .ok ⟨.firstItem, stack⟩ := if_pos hfit
    cases items with
    | nil => rw [writeOnto, run_cons_of_step hopen, run_cons_of_step rfl]
    | cons v vs =>
      obtain ⟨hv, hvs⟩ := hv
      rw [depthItems] at hd
      rw [writeOnto, run_cons_of_step hopen, run_firstItem hv,
        run_writeOnto v (.array [] :: stack) _ hv (by simp only [List.length_cons]; omega)
          fun _ _ => closes_writeItems vs rest, deliver, run_writeItems vs [v] stack rest hvs (by omega)]
      rfl
  | obj members =>
    rw [depth] at hd
    have hfit : stack.length < maxDepth := by omega
    have hopen : step ⟨.value, stack⟩ 123 = .ok ⟨.firstKey, stack⟩ := if_pos hfit
    obtain ⟨hs, hv⟩ := hv
    cases members with
    | nil => rw [writeOnto, run_cons_of_step hopen, run_cons_of_step rfl]
    | cons m ms =>
      obtain ⟨k, v⟩ := m
      obtain ⟨hv, hvs⟩ := hv
      rw [depthMembers] at hd
      have hquote : step ⟨.firstKey, stack⟩ 34 = .ok ⟨.key [] {}, stack⟩ := rfl
      rw [writeOnto, run_cons_of_step hopen, writeString, run_cons_of_step hquote, run_key,
        run_writeOnto v (.object [] k :: stack) _ hv (by simp only [List.length_cons]; omega)
          fun _ _ => closes_writeMembers ms rest, deliver, Members.insert,
        run_writeMembers ms [(k, v)] stack rest hs hvs (by omega)]
      rfl

theorem run_writeItems (vs items : List Json) (stack : List Container) (rest : List UInt8)
    (hv : IntegralItems vs) (hd : stack.length + 1 + depthItems vs ≤ maxDepth) :
    run ⟨.afterItem items, stack⟩ (writeItems vs (93 :: rest)) =
      run (deliver (.arr (items.reverse ++ vs)) stack) rest := by
  cases vs with
  | nil =>
    rw [List.append_nil]
    exact run_cons_of_step rfl rest
  | cons v vs =>
    obtain ⟨hv, hvs⟩ := hv
    rw [depthItems] at hd
    have hcomma : step ⟨.afterItem items, stack⟩ 44 = .ok ⟨.value, .array items :: stack⟩ := rfl
    rw [writeItems, run_cons_of_step hcomma,
      run_writeOnto v (.array items :: stack) _ hv (by simp only [List.length_cons]; omega)
        fun _ _ => closes_writeItems vs rest, deliver,
      run_writeItems vs (v :: items) stack rest hvs (by omega), List.reverse_cons,
      List.append_assoc]
    rfl

theorem run_writeMembers (ms members : Members) (stack : List Container) (rest : List UInt8)
    (hs : Members.Sorted (members ++ ms)) (hv : IntegralMembers ms)
    (hd : stack.length + 1 + depthMembers ms ≤ maxDepth) :
    run ⟨.afterMember members, stack⟩ (writeMembers ms (125 :: rest)) =
      run (deliver (.obj (members ++ ms)) stack) rest := by
  cases ms with
  | nil =>
    rw [List.append_nil]
    exact run_cons_of_step rfl rest
  | cons m ms =>
    obtain ⟨k, v⟩ := m
    obtain ⟨hv, hvs⟩ := hv
    rw [depthMembers] at hd
    have hcomma : step ⟨.afterMember members, stack⟩ 44 = .ok ⟨.nextKey members, stack⟩ := rfl
    have hquote : step ⟨.nextKey members, stack⟩ 34 = .ok ⟨.key members {}, stack⟩ := rfl
    rw [writeMembers, run_cons_of_step hcomma, writeString, run_cons_of_step hquote, run_key,
      run_writeOnto v (.object members k :: stack) _ hv (by simp only [List.length_cons]; omega)
        fun _ _ => closes_writeMembers ms rest, deliver, hs.insert_last,
      run_writeMembers ms _ stack rest (by rwa [List.append_assoc]) hvs (by omega),
      List.append_assoc]
    rfl

end

end Reader

/-- **An integral value reads back from its compact text**, unless it is nested too deep. -/
theorem read_bytes {v : Json} (hv : v.Integral) (hd : v.depth ≤ maxDepth) :
    read v.bytes = .ok v := by
  by_cases hint : ∃ n, v = .int n
  · obtain ⟨n, rfl⟩ := hint
    obtain ⟨t, hpart, ht, hrun⟩ := Reader.run_writeInt hv []
    have hcomplete : t.complete = true := by
      rcases hpart with hp | hp <;> rw [NumberText.complete, hp]
    rw [read, bytes, writeOnto, Reader.start, hrun, Reader.run]
    simp [Reader.finish, hcomplete, Reader.endNumber, ht]
  · have hrun := Reader.run_writeOnto v [] [] hv (by simpa using hd) fun n he => absurd ⟨n, he⟩ hint
    rw [read, bytes, Reader.start, hrun]
    rfl

end Json
end Switchboard
