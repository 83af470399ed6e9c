import Switchboard.Json.Printer
import Switchboard.Json.Reader

/-!
# Strings read back

A string that is written between its quotes is read as that string (`run_writeString`), whether it
is a value or a key of an object: the reader is `Inside` a string in either case. Byte by byte, an
escape stands for the byte that was escaped, and no other byte ends the string (`run_escapeOnto`).
-/

namespace Switchboard
namespace Json
namespace Reader

/-- Inside a string the reader is in one of these modes; at the closing quote it goes on as said. -/
structure Inside (mode : StringText → Mode) (stack : List Container) (next : String → State) :
    Prop where
  step : ∀ t b, step ⟨mode t, stack⟩ b =
    match t.push b with
    | .ok (some t) => .ok ⟨mode t, stack⟩
    | .ok none => t.close.map next
    | .error e => .error e

theorem inside_string (stack : List Container) :
    Inside .string stack fun s => deliver (.str s) stack :=
  ⟨fun _ _ => rfl⟩

theorem inside_key (members : Members) (stack : List Container) :
    Inside (.key members) stack fun k => ⟨.colon members k, stack⟩ :=
  ⟨fun _ _ => rfl⟩

/-! ### Bytes of a string -/

/-- Two bytes that are the same character are the same. -/
theorem ofUInt8_inj {a b : UInt8} (h : Char.ofUInt8 a = Char.ofUInt8 b) : a = b := by
  have hv : a.toUInt32 = b.toUInt32 := congrArg Char.val h
  have hn : a.toNat = b.toNat := congrArg UInt32.toNat hv
  exact UInt8.toNat_inj.1 hn

/-- The four digits that a control character is written with. -/
theorem hexUnit?_control : ∀ n < 32, hexUnit? [hexDigit (UInt8.ofNat n % 16),
    hexDigit (UInt8.ofNat n / 16), 48, 48] = some n := by
  decide

theorem encodePoint_control : ∀ n < 32, encodePoint n = [UInt8.ofNat n] := by
  decide +kernel

variable {mode : StringText → Mode} {stack : List Container} {next : String → State}

/-- An escape of two bytes. -/
theorem Inside.run_slash (hm : Inside mode stack next) (content : List UInt8) {b c : UInt8}
    (hb : b ≠ 117) (hc : escaped? b = some c) (rest : List UInt8) :
    run ⟨mode ⟨content, .none⟩, stack⟩ (92 :: b :: rest) =
      run ⟨mode ⟨c :: content, .none⟩, stack⟩ rest := by
  have h₁ : StringText.push ⟨content, .none⟩ 92 = .ok (some ⟨content, .slash⟩) := rfl
  have h₂ : StringText.push ⟨content, .slash⟩ b = .ok (some ⟨c :: content, .none⟩) := by
    simp [StringText.push, hb, hc]
  simp only [run, hm.step, h₁, h₂]

/-- The escape of a control character by its number. -/
theorem Inside.run_unit (hm : Inside mode stack next) (content : List UInt8) {b : UInt8}
    (hb : b < 32) (rest : List UInt8) :
    run ⟨mode ⟨content, .none⟩, stack⟩
        (92 :: 117 :: 48 :: 48 :: hexDigit (b / 16) :: hexDigit (b % 16) :: rest) =
      run ⟨mode ⟨b :: content, .none⟩, stack⟩ rest := by
  have hn : b.toNat < 32 := hb
  have hu := hexUnit?_control b.toNat hn
  have he := encodePoint_control b.toNat hn
  rw [UInt8.ofNat_toNat] at hu he
  have h₆ : StringText.push ⟨content, .unit none [hexDigit (b / 16), 48, 48]⟩ (hexDigit (b % 16)) =
      .ok (some ⟨b :: content, .none⟩) := by
    have hlow : ¬ (0xDC00 ≤ b.toNat ∧ b.toNat ≤ 0xDFFF) := by omega
    have hhigh : ¬ (0xD800 ≤ b.toNat ∧ b.toNat ≤ 0xDBFF) := by omega
    simp [StringText.push, hu, StringText.unit, he, hlow, hhigh, Except.map]
  have h₁ : StringText.push ⟨content, .none⟩ 92 = .ok (some ⟨content, .slash⟩) := rfl
  have h₂ : StringText.push ⟨content, .slash⟩ 117 = .ok (some ⟨content, .unit none []⟩) := rfl
  have h₃ : StringText.push ⟨content, .unit none []⟩ 48 =
      .ok (some ⟨content, .unit none [48]⟩) := rfl
  have h₄ : StringText.push ⟨content, .unit none [48]⟩ 48 =
      .ok (some ⟨content, .unit none [48, 48]⟩) := rfl
  have h₅ : StringText.push ⟨content, .unit none [48, 48]⟩ (hexDigit (b / 16)) =
      .ok (some ⟨content, .unit none [hexDigit (b / 16), 48, 48]⟩) := rfl
  simp only [run, hm.step, h₁, h₂, h₃, h₄, h₅, h₆]

/-- **A byte of a string reads back**, escaped or not. -/
theorem Inside.run_escapeOnto (hm : Inside mode stack next) (content : List UInt8) (b : UInt8)
    (rest : List UInt8) :
    run ⟨mode ⟨content, .none⟩, stack⟩ (escapeOnto b rest) =
      run ⟨mode ⟨b :: content, .none⟩, stack⟩ rest := by
  have slash {a c : UInt8} (h : Char.ofUInt8 b = Char.ofUInt8 a) (hc : c ≠ 117)
      (he : escaped? c = some a) : run ⟨mode ⟨content, .none⟩, stack⟩ (92 :: c :: rest) =
        run ⟨mode ⟨b :: content, .none⟩, stack⟩ rest := by
    obtain rfl := ofUInt8_inj h
    exact hm.run_slash content hc he rest
  unfold escapeOnto
  split
  · rename_i h
    exact slash (a := 34) h (by decide) rfl
  · rename_i h
    exact slash (a := 92) h (by decide) rfl
  · rename_i h
    exact slash (a := 8) h (by decide) rfl
  · rename_i h
    exact slash (a := 12) h (by decide) rfl
  · rename_i h
    exact slash (a := 10) h (by decide) rfl
  · rename_i h
    exact slash (a := 13) h (by decide) rfl
  · rename_i h
    exact slash (a := 9) h (by decide) rfl
  · rename_i hq hs _ _ _ _ _
    split
    · rename_i hb
      exact hm.run_unit content hb rest
    · rename_i hb
      have hquote : b ≠ 34 := fun h => hq (h ▸ rfl)
      have hslash : b ≠ 92 := fun h => hs (h ▸ rfl)
      have h₁ : StringText.push ⟨content, .none⟩ b = .ok (some ⟨b :: content, .none⟩) := by
        simp [StringText.push, hquote, hslash, hb]
      simp only [run, hm.step, h₁]

/-! ### Whole strings -/

theorem Inside.run_escape (hm : Inside mode stack next) (bs content rest : List UInt8) :
    run ⟨mode ⟨content, .none⟩, stack⟩ (bs.foldr escapeOnto rest) =
      run ⟨mode ⟨bs.reverse ++ content, .none⟩, stack⟩ rest := by
  induction bs generalizing content with
  | nil => rfl
  | cons b bs ih =>
    rw [List.foldr_cons, hm.run_escapeOnto, ih, List.reverse_cons, List.append_assoc]
    rfl

/-- **A string reads back**, once its opening quote has been taken. -/
theorem Inside.run_string (hm : Inside mode stack next) (s : String) (rest : List UInt8) :
    run ⟨mode {}, stack⟩ ((Text.bytes s).foldr escapeOnto (34 :: rest)) = run (next s) rest := by
  have hc : StringText.close ⟨(Text.bytes s).reverse, .none⟩ = .ok s := by
    simp [StringText.close, Text.ofBytes?_bytes]
  have hq : StringText.push ⟨(Text.bytes s).reverse, .none⟩ 34 = .ok none := rfl
  rw [hm.run_escape, List.append_nil, run, hm.step, hq]
  simp only [hc, Except.map]

end Reader
end Json
end Switchboard
