import Mathlib.Data.Nat.Init
import Mathlib.Tactic.ByContra
import Switchboard.Proofs.Frame.Chunks

/-!
# The right frames at the front of a stream

A stream begins with some right frames, one behind the other (`Holds`). What follows them is nothing
at all, a frame that is cut off (`Cut`), or one that is wrong (`Wrong`): `Ends` says which, and so
how a reader stops there. A frame is wrong as soon as ten bytes of it are there that make no header;
its checksum and its payload are judged once it is there as a whole.

Every stream falls apart in this way (`exists_holds_ends`), and in one way only:
`Carries.append_inj` finds the first frame again, and `Holds.longest` all of them.
-/

namespace Switchboard
namespace Frame

variable {buffer frame bad rest tail : List UInt8} {m : Message} {ms : List Message} {e : Error}

/-! ### One frame -/

/-- A header that is right and as many bytes behind it as it announces. -/
structure Whole (frame : List UInt8) : Prop where
  header : headerError? frame = none
  length : size frame = frame.length

/-- A frame that is right: its checksum is that of its payload, and this is the text of a
message. -/
structure Carries (frame : List UInt8) (m : Message) : Prop extends Whole frame where
  checksum : (Checksum.ofBytes (body frame)).toNat = stated frame
  payload : Message.parse (body frame) = .ok m

/-- A frame that is wrong, as far as it takes to see that. -/
inductive Wrong : List UInt8 → Error → Prop
  | header {bad : List UInt8} {e : Error} (length : bad.length = headerSize)
      (header : headerError? bad = some e) : Wrong bad e
  | checksum {bad : List UInt8} (whole : Whole bad)
      (checksum : (Checksum.ofBytes (body bad)).toNat ≠ stated bad) :
      Wrong bad (.checksum (stated bad) (Checksum.ofBytes (body bad)).toNat)
  | payload {bad : List UInt8} {e : Message.Error} (whole : Whole bad)
      (checksum : (Checksum.ofBytes (body bad)).toNat = stated bad)
      (payload : Message.parse (body bad) = .error e) : Wrong bad (.message e)

/-- Some bytes of a frame, but not all of them. -/
inductive Cut : List UInt8 → Prop
  | header {bytes : List UInt8} (ne : bytes ≠ []) (short : bytes.length < headerSize) : Cut bytes
  | payload {bytes : List UInt8} (long : headerSize ≤ bytes.length)
      (header : headerError? bytes = none) (short : bytes.length < size bytes) : Cut bytes

/-- A whole frame is judged by its checksum and its payload. -/
theorem Whole.right_or_wrong (hw : Whole frame) :
    (∃ m, Carries frame m) ∨ ∃ e, Wrong frame e := by
  by_cases hc : (Checksum.ofBytes (body frame)).toNat = stated frame
  · cases hp : Message.parse (body frame) with
    | ok m => exact .inl ⟨m, hw, hc, hp⟩
    | error e => exact .inr ⟨_, .payload hw hc hp⟩
  · exact .inr ⟨_, .checksum hw hc⟩

theorem Carries.decode (hf : Carries frame m) (rest : List UInt8) :
    decode (frame ++ rest) = (.message m, rest) := by
  rw [decode_append_of_size_eq hf.length hf.header]
  simp only [ofPayload, hf.checksum, hf.payload, if_true]

theorem Wrong.decode (hb : Wrong bad e) (tail : List UInt8) :
    (decode (bad ++ tail)).1 = .error e := by
  cases hb with
  | header hlen he => rw [decode_append_of_headerError (Nat.le_of_eq hlen.symm) he]
  | checksum hw hc =>
    rw [decode_append_of_size_eq hw.length hw.header]
    simp only [ofPayload, hc, if_false]
  | payload hw hc hp =>
    rw [decode_append_of_size_eq hw.length hw.header]
    simp only [ofPayload, hc, hp, if_true]

theorem Cut.ne_nil (hc : Cut rest) : rest ≠ [] := by
  cases hc with
  | header ne => exact ne
  | payload long =>
    rintro rfl
    exact absurd long (by decide)

theorem Cut.decode (hc : Cut rest) : decode rest = (.more, rest) := by
  rw [decode_eq]
  cases hc with
  | header _ short => rw [if_pos short]
  | payload long hok short =>
    rw [if_neg (Nat.not_lt.2 long), hok]
    exact if_pos short

/-- Ten bytes that make no header are wrong, whatever follows them. -/
theorem wrong_of_headerError (hlong : headerSize ≤ buffer.length)
    (he : headerError? buffer = some e) : Wrong (buffer.take headerSize) e := by
  have hlen : (buffer.take headerSize).length = headerSize := List.length_take_of_le hlong
  refine .header hlen ?_
  rw [← he, ← headerError?_append (Nat.le_of_eq hlen.symm) (buffer.drop headerSize),
    List.take_append_drop]

/-- The first frame of a buffer that has all of it. -/
theorem whole_take_size (hok : headerError? buffer = none) (hsize : size buffer ≤ buffer.length) :
    Whole (buffer.take (size buffer)) := by
  have hlen : (buffer.take (size buffer)).length = size buffer := List.length_take_of_le hsize
  have hlong : headerSize ≤ (buffer.take (size buffer)).length := by
    rw [hlen, size]
    omega
  have happ := List.take_append_drop (size buffer) buffer
  have hann : announced (buffer.take (size buffer)) = announced buffer := by
    rw [← announced_append hlong (buffer.drop (size buffer)), happ]
  constructor
  · rw [← hok, ← headerError?_append hlong (buffer.drop (size buffer)), happ]
  · rw [hlen, size, hann, size]

theorem word_ofWord (a b c d : UInt8) : word (ofWord [a, b, c, d]) = [a, b, c, d] := by
  have ha := a.toNat_lt
  have hb := b.toNat_lt
  have hc := c.toNat_lt
  have hd := d.toNat_lt
  simp only [ofWord, word, List.foldl, Nat.shiftRight_eq_div_pow, List.cons.injEq, and_true,
    ← UInt8.toNat_inj, UInt8.toNat_ofNat']
  omega

/-- A part of a right frame is not a frame yet. -/
theorem Carries.decode_take (hf : Carries frame m) {n : Nat} (hn : n < frame.length) :
    (Frame.decode (frame.take n)).1 = .more := by
  by_contra hne
  -- Otherwise the part would be judged as the frame is, and nothing would be left of either.
  have happ := decode_append hne (frame.drop n)
  have hwhole := hf.decode []
  rw [List.append_nil] at hwhole
  rw [List.take_append_drop, hwhole] at happ
  have hnil := (List.append_eq_nil_iff.1 (congrArg Prod.snd happ).symm).2
  rw [List.drop_eq_nil_iff] at hnil
  omega

/-! ### The front of a stream -/

/-- Right frames one behind the other, and their messages. -/
inductive Holds : List UInt8 → List Message → Prop
  | nil : Holds [] []
  | cons {frame front : List UInt8} {m : Message} {ms : List Message} (first : Carries frame m)
      (others : Holds front ms) : Holds (frame ++ front) (m :: ms)

/-- What follows the right frames, and how a reader ends there. -/
inductive Ends : List UInt8 → End → Prop
  | clean : Ends [] .clean
  | torn {rest : List UInt8} (cut : Cut rest) : Ends rest .torn
  | broken {bad : List UInt8} {e : Error} (wrong : Wrong bad e) (tail : List UInt8) :
      Ends (bad ++ tail) (.broken e)

/-- **Something is a right frame, or it ends the stream.** -/
theorem carries_or_ends (buffer : List UInt8) :
    (∃ frame rest m, buffer = frame ++ rest ∧ Carries frame m) ∨ ∃ e, Ends buffer e := by
  by_cases hnil : buffer = []
  · subst hnil
    exact .inr ⟨_, .clean⟩
  by_cases hlong : buffer.length < headerSize
  · exact .inr ⟨_, .torn (.header hnil hlong)⟩
  rw [Nat.not_lt] at hlong
  cases he : headerError? buffer with
  | some e =>
    have hends := Ends.broken (wrong_of_headerError hlong he) (buffer.drop headerSize)
    rw [List.take_append_drop] at hends
    exact .inr ⟨_, hends⟩
  | none =>
    by_cases hshort : buffer.length < size buffer
    · exact .inr ⟨_, .torn (.payload hlong he hshort)⟩
    · have happ := List.take_append_drop (size buffer) buffer
      rcases (whole_take_size he (Nat.not_lt.1 hshort)).right_or_wrong with ⟨m, hm⟩ | ⟨e, hw⟩
      · exact .inl ⟨_, _, m, happ.symm, hm⟩
      · exact .inr ⟨_, happ ▸ Ends.broken hw (buffer.drop (size buffer))⟩

/-- A wrong version is not seen before the header is there. -/
example : Ends [2, 1, 1] .torn :=
  .torn (.header (by decide) (by decide))

/-- How a reader ends follows from what it finds. -/
theorem Ends.eq_of_decode {e : End} (he : Ends rest e) :
    e = match (decode rest).1 with
      | .error e => .broken e
      | .more | .message _ => if rest.isEmpty then .clean else .torn := by
  cases he with
  | clean => rfl
  | torn hc =>
    have hne : rest.isEmpty = false := List.isEmpty_eq_false_iff.2 hc.ne_nil
    simp only [hc.decode, hne, Bool.false_eq_true, if_false]
  | broken hw tail => simp only [hw.decode tail]

/-- There is one way only in which a stream can end. -/
theorem Ends.unique {e e' : End} (he : Ends rest e) (he' : Ends rest e') : e = e' :=
  he.eq_of_decode.trans he'.eq_of_decode.symm

/-- A reader finds no message where a stream ends. -/
theorem Ends.decode_ne_message {e : End} (he : Ends rest e) (m : Message) :
    (decode rest).1 ≠ .message m := by
  cases he with
  | clean => exact Decoded.noConfusion
  | torn hc => simp only [hc.decode, ne_eq, reduceCtorEq, not_false_eq_true]
  | broken hw tail => simp only [hw.decode tail, ne_eq, reduceCtorEq, not_false_eq_true]

/-- Right frames are found again, whatever follows them. -/
theorem Carries.append_inj {frame' rest' : List UInt8} {m' : Message} (hf : Carries frame m)
    (hf' : Carries frame' m') (h : frame ++ rest = frame' ++ rest') :
    frame = frame' ∧ m = m' ∧ rest = rest' := by
  have hd := hf.decode rest
  rw [h, hf'.decode, Prod.mk.injEq, Decoded.message.injEq] at hd
  obtain ⟨rfl, rfl⟩ := hd
  exact ⟨List.append_cancel_right h, rfl, rfl⟩

/-- **A frame is right if an encoder could have written it.** -/
theorem carries_iff : Carries frame m ↔
    ∃ text, frame = header text ++ text ∧ text.length ≤ maxPayload ∧
      Message.parse text = .ok m := by
  constructor
  · rintro ⟨⟨hheader, hlength⟩, hchecksum, hparse⟩
    have hlong : headerSize ≤ frame.length := by
      rw [← hlength, size]
      omega
    rcases frame with _ | ⟨v, _ | ⟨t, _ | ⟨c₁, _ | ⟨c₂, _ | ⟨c₃, _ | ⟨c₄, _ | ⟨n₁, _ | ⟨n₂, _ |
      ⟨n₃, _ | ⟨n₄, text⟩⟩⟩⟩⟩⟩⟩⟩⟩⟩
    case cons.cons.cons.cons.cons.cons.cons.cons.cons.cons =>
      have hann : ofWord [n₁, n₂, n₃, n₄] = text.length := by
        simp only [size, announced, headerSize, List.drop_succ_cons, List.drop_zero,
          List.take_succ_cons, List.take_zero, List.length_cons] at hlength
        omega
      simp only [body, stated, announced, headerSize, headerError?, List.drop_succ_cons,
        List.drop_zero, List.take_succ_cons, List.take_zero, hann, List.take_length]
        at hchecksum hparse hheader
      have hfields : v = version ∧ t = jsonType ∧ text.length ≤ maxPayload := by
        grind
      obtain ⟨rfl, rfl, hmax⟩ := hfields
      refine ⟨text, ?_, hmax, hparse⟩
      rw [header, hchecksum, ← hann, word_ofWord, word_ofWord]
      rfl
    all_goals simp [headerSize] at hlong
  · rintro ⟨text, rfl, hmax, hparse⟩
    have hd := decode_header_append hmax []
    rw [List.append_nil, ofPayload, hparse] at hd
    simp only [if_true] at hd
    rcases carries_or_ends (header text ++ text) with ⟨frame, rest, m', happ, hf⟩ | ⟨e, he⟩
    · rw [happ, hf.decode, Prod.mk.injEq, Decoded.message.injEq] at hd
      obtain ⟨rfl, rfl⟩ := hd
      rwa [happ, List.append_nil]
    · exact absurd (congrArg Prod.fst hd) (he.decode_ne_message m)

/-- **Every stream begins with right frames, and then it ends.** -/
theorem exists_holds_ends (stream : List UInt8) :
    ∃ front ms rest e, stream = front ++ rest ∧ Holds front ms ∧ Ends rest e := by
  induction hn : stream.length using Nat.strong_induction_on generalizing stream with
  | _ n ih =>
    rcases carries_or_ends stream with ⟨frame, more, m, rfl, hf⟩ | ⟨e, he⟩
    · have hlt : more.length < n := by
        have hlong := hf.length
        rw [size, headerSize] at hlong
        rw [← hn, List.length_append]
        omega
      obtain ⟨front, ms, rest, e, rfl, hh, he⟩ := ih _ hlt more rfl
      exact ⟨frame ++ front, m :: ms, rest, e, (List.append_assoc ..).symm, .cons hf hh, he⟩
    · exact ⟨[], [], stream, e, rfl, .nil, he⟩

/-- **No right frames lead further** than up to where the stream ends. -/
theorem Holds.longest {front front' rest' : List UInt8} {ms' : List Message} {e : End}
    (hh : Holds front ms) (he : Ends rest e) (hh' : Holds front' ms')
    (h : front ++ rest = front' ++ rest') : front' <+: front ∧ ms' <+: ms := by
  induction hh' generalizing front ms with
  | nil => exact ⟨List.nil_prefix, List.nil_prefix⟩
  | @cons frame' front' m' ms' hf' hh' ih =>
    cases hh with
    | nil =>
      rw [List.nil_append, List.append_assoc] at h
      subst h
      exact absurd (congrArg Prod.fst (hf'.decode _)) (he.decode_ne_message m')
    | cons hf hh =>
      rw [List.append_assoc, List.append_assoc] at h
      obtain ⟨rfl, rfl, h⟩ := hf.append_inj hf' h
      obtain ⟨hfront, hms⟩ := ih hh h
      exact ⟨(List.prefix_append_right_inj _).2 hfront, (List.cons_prefix_cons).2 ⟨rfl, hms⟩⟩

/-! ### What a reader finds -/

/-- A reader that finds a message finds the first one. -/
theorem Holds.of_decode_message {front : List UInt8} {e : End} {more : List UInt8}
    (hh : Holds front ms) (he : Ends rest e) (hd : decode (front ++ rest) = (.message m, more)) :
    ∃ front' ms', ms = m :: ms' ∧ more = front' ++ rest ∧ Holds front' ms' := by
  cases hh with
  | nil =>
    rw [List.nil_append] at hd
    exact absurd (congrArg Prod.fst hd) (he.decode_ne_message m)
  | cons hf hh =>
    rw [List.append_assoc, hf.decode, Prod.mk.injEq, Decoded.message.injEq] at hd
    obtain ⟨rfl, rfl⟩ := hd
    exact ⟨_, _, rfl, rfl, hh⟩

/-- A reader that finds no message has come to the end. -/
theorem Holds.of_decode_ne_message {front : List UInt8} (hh : Holds front ms)
    (hd : ∀ m, (decode (front ++ rest)).1 ≠ .message m) : front = [] ∧ ms = [] := by
  cases hh with
  | nil => exact ⟨rfl, rfl⟩
  | cons hf hh =>
    rw [List.append_assoc, hf.decode] at hd
    exact absurd rfl (hd _)

end Frame
end Switchboard
