import Switchboard.Proofs.Text.Order
import Switchboard.Task.Store

/-!
# Which texts are cursors

A cursor is a text of hexadecimal digits, two for each byte of an identifier. What is read as one is
said here without the reader: `Cursor.Paired` is the texts that are made of such pairs, and
`Cursor.pairBytes` the bytes that they write. `Cursor.bytes?_eq_some_iff` says that the reader takes
exactly those, and `Cursor.toId?_eq_some_iff` that of these the ones are cursors whose bytes are a
text.

Digits may have either case, so the cursor of the identifier that was read is the text itself in
lower case. A plus sign in the place of a first digit is read as a zero, though no cursor is written
so: the text `+1` names the same task as the text `01` (`Cursor.reads_plus_sign`).

Reading by byte offsets, two bytes at a time, comes to the same (`Cursor.scan_eq`). Behind the check
for an even number of ASCII characters no offset is outside the text or inside a character.
-/

namespace Switchboard
namespace Cursor

/-! ### Digits -/

/-- The hexadecimal digits, in lower case. -/
def digits : List Char :=
  ['0', '1', '2', '3', '4', '5', '6', '7', '8', '9', 'a', 'b', 'c', 'd', 'e', 'f']

/-- A hexadecimal digit, in either case. -/
def IsHex (c : Char) : Prop :=
  c.toLower ∈ digits

instance : DecidablePred IsHex := fun c => inferInstanceAs (Decidable (c.toLower ∈ digits))

/-- The character as cursors are written: in lower case, with a zero for a plus sign. -/
def plain (c : Char) : Char :=
  if c = '+' then '0' else c.toLower

/-- What holds of the first 128 characters holds of every ASCII character. -/
theorem forall_ascii {P : Char → Prop} (h : ∀ n < 128, P (Char.ofNat n)) {c : Char}
    (hc : c.toNat < 128) : P c :=
  Char.ofNat_toNat c ▸ h c.toNat hc

/-- What holds of the digits one after the other holds of every digit. -/
theorem forall_digits {P : Char → Prop} [DecidablePred P]
    (h : digits.all (fun c => decide (P c)) = true) : ∀ c ∈ digits, P c :=
  fun c hc => of_decide_eq_true (List.all_eq_true.mp h c hc)

theorem toNat_of_digitValue? {c : Char} {n : Nat} (h : digitValue? c = some n) :
    c.toNat < 128 := by
  have hle (d : Char) (hd : d.toNat < 128) : c ≤ d → c.toNat < 128 := fun hcd =>
    Nat.lt_of_le_of_lt (UInt32.le_iff_toNat_le.mp (Char.le_def.mp hcd)) hd
  unfold digitValue? at h
  split at h
  · next hdigit =>
    simp only [Char.isDigit, ge_iff_le, Bool.and_eq_true, decide_eq_true_eq] at hdigit
    exact hle '9' (by decide) (Char.le_def.mpr hdigit.2)
  · split at h
    · next hlower => exact hle 'f' (by decide) hlower.2
    · split at h
      · next hupper => exact hle 'F' (by decide) hupper.2
      · cases h

theorem IsHex.toNat_lt {c : Char} (h : IsHex c) : c.toNat < 128 := by
  unfold IsHex Char.toLower at h
  split at h
  · next hupper =>
    have hle : c.val.toNat ≤ 'Z'.val.toNat := UInt32.le_iff_toNat_le.mp hupper.2
    exact Nat.lt_of_le_of_lt hle (by decide)
  · exact forall_digits (P := fun d => d.toNat < 128) (by decide) _ h

/-- **The reader knows the digits**, in either case, by their places among the sixteen. -/
theorem digitValue?_eq (c : Char) :
    digitValue? c = if IsHex c then some (digits.idxOf c.toLower) else none := by
  rcases Nat.lt_or_ge c.toNat 128 with hc | hc
  · exact forall_ascii (P := fun c =>
      digitValue? c = if IsHex c then some (digits.idxOf c.toLower) else none) (by decide) hc
  · rw [if_neg fun h : IsHex c => Nat.not_lt.mpr hc h.toNat_lt]
    exact Option.eq_none_iff_forall_ne_some.mpr fun n hn =>
      Nat.not_lt.mpr hc (toNat_of_digitValue? hn)

theorem not_isHex_plus : ¬ IsHex '+' := by decide

theorem plain_of_isHex {c : Char} (h : IsHex c) : plain c = c.toLower := by
  rw [plain, if_neg]
  rintro rfl
  exact not_isHex_plus h

theorem digitChar_idxOf : ∀ c ∈ digits, digitChar (digits.idxOf c) = c :=
  forall_digits (by decide)

/-! ### Pairs of digits -/

/-- Pairs of hexadecimal digits; the first of a pair may be a plus sign. -/
inductive Paired : List Char → Prop
  | nil : Paired []
  | cons {c d : Char} {rest : List Char} (hc : IsHex c ∨ c = '+') (hd : IsHex d)
      (hrest : Paired rest) : Paired (c :: d :: rest)

/-- The bytes that pairs of digits write, the higher digit first. -/
def pairBytes : List Char → List UInt8
  | c :: d :: rest => UInt8.ofNat (digits.idxOf c * 16 + digits.idxOf d) :: pairBytes rest
  | _ => []

/-- **Two characters write a byte** if the second is a digit and the first one too, or a plus sign,
which counts as a zero. -/
theorem byte?_eq_some_iff {c d : Char} {b : UInt8} :
    byte? c d = some b ↔ (IsHex c ∨ c = '+') ∧ IsHex d ∧
      b = UInt8.ofNat (digits.idxOf (plain c) * 16 + digits.idxOf (plain d)) := by
  have hvalue (d : Char) :
      digitValue? d = if IsHex d then some (digits.idxOf (plain d)) else none := by
    rw [digitValue?_eq]
    split
    · next hd => rw [plain_of_isHex hd]
    · rfl
  by_cases hc : c = '+'
  · subst hc
    have hzero : digits.idxOf (plain '+') * 16 = 0 := by decide
    rw [byte?, if_pos rfl, hvalue, hzero]
    by_cases hd : IsHex d <;> simp [hd, eq_comm]
  · rw [byte?, if_neg hc, hvalue, hvalue]
    by_cases hhigh : IsHex c <;> by_cases hlow : IsHex d <;> simp [hc, hhigh, hlow, eq_comm]

theorem paired_cons_iff {c d : Char} {rest : List Char} :
    Paired (c :: d :: rest) ↔ (IsHex c ∨ c = '+') ∧ IsHex d ∧ Paired rest := by
  constructor
  · rintro (_ | ⟨hc, hd, hrest⟩)
    exact ⟨hc, hd, hrest⟩
  · rintro ⟨hc, hd, hrest⟩
    exact .cons hc hd hrest

theorem not_paired_singleton (c : Char) : ¬ Paired [c] := by
  rintro (_ | _)

/-- **Pairs of digits are read, and nothing else**, as the bytes that they write. -/
theorem bytes?_eq_some_iff :
    ∀ {cs : List Char} {bs : List UInt8},
      bytes? cs = some bs ↔ Paired cs ∧ bs = pairBytes (cs.map plain)
  | [], bs => by simp [bytes?, pairBytes, Paired.nil, eq_comm]
  | [c], bs => by simp [bytes?, not_paired_singleton]
  | c :: d :: rest, bs => by
    have hsplit : bytes? (c :: d :: rest) = some bs ↔
        ∃ b bs', byte? c d = some b ∧ bytes? rest = some bs' ∧ bs = b :: bs' := by
      rw [bytes?]
      cases byte? c d <;> cases bytes? rest <;> simp [eq_comm]
    simp only [hsplit, byte?_eq_some_iff, bytes?_eq_some_iff, paired_cons_iff, List.map_cons,
      pairBytes]
    constructor
    · rintro ⟨b, bs', ⟨hc, hd, rfl⟩, ⟨hrest, rfl⟩, rfl⟩
      exact ⟨⟨hc, hd, hrest⟩, rfl⟩
    · rintro ⟨⟨hc, hd, hrest⟩, rfl⟩
      exact ⟨_, _, ⟨hc, hd, rfl⟩, ⟨hrest, rfl⟩, rfl⟩

/-- Without a plus sign, pairs of digits are digits that are even in number. -/
theorem paired_iff :
    ∀ {cs : List Char}, '+' ∉ cs → (Paired cs ↔ cs.length % 2 = 0 ∧ ∀ c ∈ cs, IsHex c)
  | [], _ => by simp [Paired.nil]
  | [c], _ => by simp [not_paired_singleton]
  | c :: d :: rest, hplus => by
    have hc : c ≠ '+' := fun h => hplus (h ▸ List.mem_cons_self)
    have hrest : '+' ∉ rest := fun h => hplus (List.mem_cons_of_mem _ (List.mem_cons_of_mem _ h))
    have hlength : (c :: d :: rest).length % 2 = rest.length % 2 := Nat.add_mod_right _ 2
    rw [paired_cons_iff, paired_iff hrest, hlength, List.forall_mem_cons, List.forall_mem_cons]
    constructor
    · rintro ⟨hhigh, hlow, heven, hall⟩
      exact ⟨heven, hhigh.resolve_right hc, hlow, hall⟩
    · rintro ⟨heven, hhigh, hlow, hall⟩
      exact ⟨.inl hhigh, hlow, heven, hall⟩

/-- **The bytes of pairs of digits are written as those digits**, in lower case. -/
theorem hex_pairBytes {cs : List Char} (h : Paired cs) :
    hex (pairBytes (cs.map plain)) = String.ofList (cs.map plain) := by
  have hmem (c : Char) (hc : IsHex c ∨ c = '+') : plain c ∈ digits := by
    rcases hc with hc | rfl
    · exact plain_of_isHex hc ▸ hc
    · decide
  rw [hex]
  congr 1
  induction h with
  | nil => rfl
  | @cons c d rest hc hd hrest ih =>
    have hhigh : digits.idxOf (plain c) < 16 := List.idxOf_lt_length_iff.mpr (hmem c hc)
    have hlow : digits.idxOf (plain d) < 16 := List.idxOf_lt_length_iff.mpr (hmem d (.inl hd))
    have hbyte : (UInt8.ofNat (digits.idxOf (plain c) * 16 + digits.idxOf (plain d))).toNat =
        digits.idxOf (plain c) * 16 + digits.idxOf (plain d) := by
      rw [UInt8.toNat_ofNat', Nat.mod_eq_of_lt (by omega)]
    have hdiv : (digits.idxOf (plain c) * 16 + digits.idxOf (plain d)) / 16 =
        digits.idxOf (plain c) := by omega
    have hmod : (digits.idxOf (plain c) * 16 + digits.idxOf (plain d)) % 16 =
        digits.idxOf (plain d) := by omega
    rw [List.map_cons, List.map_cons, pairBytes, List.flatMap_cons, ih, hbyte, hdiv, hmod,
      digitChar_idxOf _ (hmem c hc), digitChar_idxOf _ (hmem d (.inl hd))]
    rfl

/-! ### Cursors -/

/-- **What is read as a cursor**: pairs of digits whose bytes are a text. -/
theorem toId?_eq_some_iff {c id : String} :
    toId? c = some id ↔ Paired c.toList ∧ Text.bytes id = pairBytes (c.toList.map plain) := by
  rw [toId?, Option.bind_eq_some_iff]
  constructor
  · rintro ⟨bs, hbs, hid⟩
    obtain ⟨hpaired, rfl⟩ := bytes?_eq_some_iff.mp hbs
    exact ⟨hpaired, Text.bytes_of_ofBytes? hid⟩
  · rintro ⟨hpaired, hid⟩
    exact ⟨_, bytes?_eq_some_iff.mpr ⟨hpaired, rfl⟩, Text.ofBytes?_eq_some_iff.mpr hid⟩

/-- **The cursor of what was read** is the text that it was read from, as cursors are written. -/
theorem ofId_of_toId? {c id : String} (h : toId? c = some id) :
    ofId id = String.ofList (c.toList.map plain) := by
  obtain ⟨hpaired, hid⟩ := toId?_eq_some_iff.mp h
  rw [ofId, hid, hex_pairBytes hpaired]

/-! ### Reading by offsets -/

/-- An offset into the bytes of a text that is not inside a character. -/
def isBoundary (bs : List UInt8) (i : Nat) : Bool :=
  i == 0 || i == bs.length || bs[i]?.any fun b => b < 128 || 192 ≤ b

/-- The bytes between two offsets; none if one of them is outside the text or inside a character. -/
def slice? (bs : List UInt8) (i j : Nat) : Option (List UInt8) :=
  if i ≤ j ∧ isBoundary bs i ∧ isBoundary bs j then some ((bs.drop i).take (j - i)) else none

/-- The byte that hexadecimal digits write, behind a plus sign or not. -/
def radix? (bs : List UInt8) : Option UInt8 :=
  let digits := if bs.head? = some 43 then bs.tail else bs
  let value := digits.foldlM (fun n b => (digitValue? (Char.ofNat b.toNat)).map (n * 16 + ·)) 0
  if digits = [] then none
  else value.bind fun n => if n < 256 then some (UInt8.ofNat n) else none

/-- Reads two bytes at each of some offsets, up to the first two that write no byte; none if one of
the offsets cannot be read at. -/
def scanAt (bs : List UInt8) : List Nat → Option (Except TaskError (List UInt8))
  | [] => some (.ok [])
  | i :: is =>
    match slice? bs i (i + 2) with
    | none => none
    | some pair =>
      match radix? pair with
      | none => some (.error .badCursor)
      | some b => (scanAt bs is).map fun bytes => bytes.map (b :: ·)

def isAscii (bs : List UInt8) : Bool :=
  bs.all fun b => b < 128

/-- Reads a cursor by offsets, if it is an even number of ASCII characters. -/
def scan (cursor : String) : Option (Except TaskError String) :=
  let bs := Text.bytes cursor
  if bs.length % 2 ≠ 0 ∨ isAscii bs = false then some (.error .badCursor)
  else
    (scanAt bs (List.range' 0 ((bs.length + 1) / 2) 2)).map fun read => do
      let bytes ← read
      (Text.ofBytes? bytes).elim (.error .badCursor) .ok

theorem slice?_of_ascii {bs : List UInt8} (h : ∀ b ∈ bs, b < 128) {i j : Nat} (hij : i ≤ j)
    (hj : j ≤ bs.length) : slice? bs i j = some ((bs.drop i).take (j - i)) := by
  have hboundary (k : Nat) (hk : k ≤ bs.length) : isBoundary bs k = true := by
    unfold isBoundary
    rcases Nat.lt_or_eq_of_le hk with hlt | heq
    · simp [hlt, h bs[k] (List.getElem_mem hlt)]
    · simp [heq]
  rw [slice?, if_pos ⟨hij, hboundary i (Nat.le_trans hij hj), hboundary j hj⟩]

theorem ofNat_toUInt8 {c : Char} (h : c.toNat < 128) : Char.ofNat c.toUInt8.toNat = c :=
  forall_ascii (P := fun c => Char.ofNat c.toUInt8.toNat = c) (by decide) h

theorem toUInt8_eq_plus_iff {c : Char} (h : c.toNat < 128) : c.toUInt8 = 43 ↔ c = '+' :=
  forall_ascii (P := fun c => c.toUInt8 = 43 ↔ c = '+') (by decide) h

theorem digitValue?_lt {c : Char} {n : Nat} (h : digitValue? c = some n) : n < 16 := by
  rw [digitValue?_eq] at h
  split at h
  · next hc =>
    rw [← Option.some.inj h]
    exact List.idxOf_lt_length_iff.mpr hc
  · cases h

/-- Two ASCII characters write the same byte as their encodings. -/
theorem radix?_pair {c d : Char} (hc : c.toNat < 128) (hd : d.toNat < 128) :
    radix? [c.toUInt8, d.toUInt8] = byte? c d := by
  unfold radix? byte?
  by_cases hplus : c = '+'
  · rw [if_pos hplus, (toUInt8_eq_plus_iff hc).mpr hplus]
    simp only [List.head?_cons, if_true, List.tail_cons]
    cases hlow : digitValue? d with
    | none => simp [ofNat_toUInt8 hd, hlow]
    | some n =>
      have hn : n < 256 := Nat.lt_trans (digitValue?_lt hlow) (by decide)
      simp [ofNat_toUInt8 hd, hlow, hn]
  · simp only [List.head?_cons, Option.some.injEq, toUInt8_eq_plus_iff hc, hplus, if_false]
    cases hhigh : digitValue? c with
    | none => simp [ofNat_toUInt8 hc, hhigh]
    | some m =>
      cases hlow : digitValue? d with
      | none => simp [ofNat_toUInt8 hc, ofNat_toUInt8 hd, hhigh, hlow]
      | some n =>
        have hm : m < 16 := digitValue?_lt hhigh
        have hn : n < 16 := digitValue?_lt hlow
        have hbyte : m * 16 + n < 256 := by omega
        simp [ofNat_toUInt8 hc, ofNat_toUInt8 hd, hhigh, hlow, hbyte]

theorem ascii_lt {cs : List Char} (h : ∀ c ∈ cs, c.toNat < 128) :
    ∀ b ∈ Text.ascii cs, b < 128 := by
  intro b hb
  obtain ⟨c, hc, rfl⟩ := List.mem_map.mp hb
  exact forall_ascii (P := fun c => c.toUInt8 < 128) (by decide) (h c hc)

theorem isAscii_iff {bs : List UInt8} : isAscii bs = true ↔ ∀ b ∈ bs, b < 128 := by
  simp [isAscii]

/-- Behind an even number of ASCII characters, no offset is wrong. -/
theorem scanAt_of_ascii :
    ∀ (cs front : List Char), (∀ c ∈ front ++ cs, c.toNat < 128) → cs.length % 2 = 0 →
      scanAt (Text.ascii (front ++ cs)) (List.range' front.length ((cs.length + 1) / 2) 2) =
        some ((bytes? cs).elim (.error .badCursor) .ok)
  | [], front, _, _ => rfl
  | [c], front, _, heven => by cases heven
  | c :: d :: rest, front, hascii, heven => by
    have hc : c.toNat < 128 := hascii c (by simp)
    have hd : d.toNat < 128 := hascii d (by simp)
    have hslice : slice? (Text.ascii (front ++ c :: d :: rest)) front.length (front.length + 2) =
        some [c.toUInt8, d.toUInt8] := by
      rw [slice?_of_ascii (ascii_lt hascii) (by omega) (by simp [Text.ascii])]
      simp [Text.ascii]
    have hcount : ((c :: d :: rest).length + 1) / 2 = (rest.length + 1) / 2 + 1 := by
      rw [List.length_cons, List.length_cons]
      omega
    have hfront : front ++ c :: d :: rest = front ++ [c, d] ++ rest := by simp
    have hlength : (front ++ [c, d]).length = front.length + 2 := List.length_append
    have hrest := scanAt_of_ascii rest (front ++ [c, d]) (hfront ▸ hascii)
      ((Nat.add_mod_right _ 2).symm.trans heven)
    rw [← hfront, hlength] at hrest
    rw [hcount, List.range'_succ]
    simp only [scanAt, hslice, radix?_pair hc hd, bytes?]
    cases byte? c d with
    | none => rfl
    | some b =>
      simp only [hrest]
      cases bytes? rest <;> rfl

/-- A text of ASCII characters has one byte for each of them. -/
theorem bytes_of_ascii {c : String} (h : ∀ d ∈ c.toList, d.toNat < 128) :
    Text.bytes c = Text.ascii c.toList := by
  rw [Text.bytes_eq_flatMap]
  generalize c.toList = cs at h
  induction cs with
  | nil => rfl
  | cons d ds ih =>
    obtain ⟨hd, hds⟩ := List.forall_mem_cons.mp h
    have hchar : String.utf8EncodeChar d = [d.toUInt8] :=
      forall_ascii (P := fun d => String.utf8EncodeChar d = [d.toUInt8]) (by decide) hd
    rw [List.flatMap_cons, hchar, ih hds]
    rfl

theorem utf8ByteSize_of_isHex {c : String} (h : ∀ d ∈ c.toList, IsHex d) :
    c.utf8ByteSize = c.toList.length :=
  calc c.utf8ByteSize = (Text.bytes c).length := Array.length_toList.symm
    _ = (Text.ascii c.toList).length := by rw [bytes_of_ascii fun d hd => (h d hd).toNat_lt]
    _ = c.toList.length := List.length_map _

/-- A text whose bytes are all below 128 has ASCII characters only: the first byte of any other one
is above. -/
theorem ascii_of_bytes {c : String} (h : ∀ b ∈ Text.bytes c, b < 128) :
    ∀ d ∈ c.toList, d.toNat < 128 := by
  intro d hd
  refine Decidable.byContradiction fun hlarge => ?_
  have hle : ¬ d.val.toNat ≤ 127 := by
    intro hle
    exact hlarge (Nat.lt_succ_of_le hle)
  obtain ⟨b, hb, hbig⟩ : ∃ b ∈ String.utf8EncodeChar d, 128 ≤ b.toNat := by
    simp only [String.utf8EncodeChar, hle, if_false]
    split
    · exact ⟨_, List.mem_cons_self, by rw [UInt8.toNat_ofNat']; omega⟩
    · split
      · exact ⟨_, List.mem_cons_self, by rw [UInt8.toNat_ofNat']; omega⟩
      · exact ⟨_, List.mem_cons_self, by rw [UInt8.toNat_ofNat']; omega⟩
  have hmem : b ∈ Text.bytes c := by
    rw [Text.bytes_eq_flatMap]
    exact List.mem_flatMap.mpr ⟨d, hd, hb⟩
  exact Nat.not_lt.mpr hbig (UInt8.lt_iff_toNat_lt.mp (h b hmem))

theorem Paired.ascii {cs : List Char} (h : Paired cs) : ∀ c ∈ cs, c.toNat < 128 := by
  induction h with
  | nil => simp
  | cons hc hd hrest ih =>
    refine List.forall_mem_cons.mpr ⟨?_, List.forall_mem_cons.mpr ⟨hd.toNat_lt, ih⟩⟩
    rcases hc with hc | rfl
    · exact hc.toNat_lt
    · decide

theorem Paired.even {cs : List Char} (h : Paired cs) : cs.length % 2 = 0 := by
  induction h with
  | nil => rfl
  | cons hc hd hrest ih => exact (Nat.add_mod_right _ 2).trans ih

/-- **Reading by offsets never fails at an offset**, and reads what is a cursor. -/
theorem scan_eq (c : String) : scan c = some ((toId? c).elim (.error .badCursor) .ok) := by
  simp only [scan]
  split
  · next hguard =>
    have hnone : toId? c = none := by
      refine Option.eq_none_iff_forall_ne_some.mpr fun id hid => ?_
      have hpaired := (toId?_eq_some_iff.mp hid).1
      rw [bytes_of_ascii hpaired.ascii] at hguard
      rcases hguard with hodd | hascii
      · exact hodd ((congrArg (· % 2) (List.length_map _)).trans hpaired.even)
      · exact Bool.eq_false_iff.mp hascii (isAscii_iff.mpr (ascii_lt hpaired.ascii))
    rw [hnone]
    rfl
  · next hguard =>
    obtain ⟨heven, hbytes⟩ := not_or.mp hguard
    have hascii := ascii_of_bytes (isAscii_iff.mp (by simpa using hbytes))
    have hlength : (Text.ascii c.toList).length = c.toList.length := List.length_map _
    rw [bytes_of_ascii hascii] at heven ⊢
    rw [hlength] at heven ⊢
    have hscan := scanAt_of_ascii c.toList [] hascii (Decidable.not_not.mp heven)
    rw [List.nil_append, List.length_nil] at hscan
    rw [hscan, toId?]
    cases bytes? c.toList <;> rfl

/-- **Cursors are texts of hexadecimal digits.**

* The cursor of an identifier leads back to it.
* A text without a plus sign is read if and only if it has an even number of bytes, all of its
  characters are hexadecimal digits, and the bytes that they write are a text. The cursor of what is
  read is that text in lower case.
* Any text is read if and only if it is pairs of digits, the first of which may be a plus sign, and
  the bytes that they write are a text. A plus sign counts as a zero.
* Reading by offsets, two bytes at a time, does not fail at any offset, and comes to the same.
* A store refuses every other text in place of a cursor, and no text that is read. -/
theorem reads_hexadecimal (s : TaskStore) (c id : String) :
    toId? (ofId id) = some id ∧
    ('+' ∉ c.toList →
      ((toId? c).isSome = true ↔ c.utf8ByteSize % 2 = 0 ∧ (∀ d ∈ c.toList, IsHex d) ∧
        ∃ id, Text.bytes id = pairBytes (c.toList.map Char.toLower)) ∧
      (toId? c = some id → ofId id = c.toLower)) ∧
    (toId? c = some id ↔ Paired c.toList ∧ Text.bytes id = pairBytes (c.toList.map plain)) ∧
    (toId? c = some id → ofId id = String.ofList (c.toList.map plain)) ∧
    scan c = some ((toId? c).elim (.error .badCursor) .ok) ∧
    (s.page (some c) = .error .badCursor ↔ toId? c = none) := by
  refine ⟨toId?_ofId id, fun hplus => ?_, toId?_eq_some_iff, ofId_of_toId?, scan_eq c, ?_⟩
  · have hlower : c.toList.map plain = c.toList.map Char.toLower :=
      List.map_congr_left fun d hd => if_neg fun heq : d = '+' => hplus (heq ▸ hd)
    refine ⟨?_, fun hid => ?_⟩
    · simp only [Option.isSome_iff_exists, toId?_eq_some_iff, paired_iff hplus, hlower]
      constructor
      · rintro ⟨id, ⟨heven, hhex⟩, hid⟩
        exact ⟨(utf8ByteSize_of_isHex hhex).symm ▸ heven, hhex, id, hid⟩
      · rintro ⟨heven, hhex, id, hid⟩
        exact ⟨id, ⟨utf8ByteSize_of_isHex hhex ▸ heven, hhex⟩, hid⟩
    · rw [ofId_of_toId? hid, hlower, ← String.toList_map, String.ofList_toList]
      rfl
  · rw [TaskStore.page]
    cases toId? c <;> simp

/-- Digits in upper case are read, and written in lower case. -/
theorem reads_hexadecimal_upper_case :
    toId? "4A4B" = some "JK" ∧ '+' ∉ "4A4B".toList ∧ (∀ d ∈ "4A4B".toList, IsHex d) ∧
      ofId "JK" = "4A4B".toLower := by
  have hread : toId? "4A4B" = some "JK" := by decide +kernel
  have hplus : '+' ∉ "4A4B".toList := by decide
  obtain ⟨-, hhexadecimal, -⟩ := reads_hexadecimal (.empty {} fun _ => []) "4A4B" "JK"
  obtain ⟨hexact, hwritten⟩ := hhexadecimal hplus
  exact ⟨hread, hplus, (hexact.mp (Option.isSome_of_eq_some hread)).2.1, hwritten hread⟩

/-- A text that is not all digits is read: it names a task, and a store answers it with a page. -/
theorem reads_plus_sign :
    toId? "+1" = some "\x01" ∧ ofId "\x01" = "01" ∧ (¬ ∀ d ∈ "+1".toList, IsHex d) ∧
      (TaskStore.empty {} fun _ => []).page (some "+1") = .ok ⟨[], none⟩ := by
  have hread : toId? "+1" = some "\x01" := by decide +kernel
  refine ⟨hread, by decide +kernel, fun hhex => not_isHex_plus (hhex '+' (by decide)), ?_⟩
  rw [TaskStore.page, hread]
  rfl

end Cursor
end Switchboard
