import Switchboard.Proofs.Frame.Checksum
import Switchboard.Proofs.Frame.Prefix

/-!
# Frames that are damaged on their way

A frame is `Corrupted` if its payload has been disturbed by a burst of at most sixteen bits or by an
odd number of bits, or if its checksum has been changed. Its header still announces the length of
the payload, so the reader takes the frame off as a whole; and its checksum is not that of the
payload, so the reader never takes it for a message (`decode_corrupted`). What comes behind the
frame is left as it is.
-/

namespace Switchboard
namespace Frame

variable {frame received field text : List UInt8} {m : Message}

/-- What may become of a frame on its way. -/
inductive Corrupted (frame : List UInt8) : List UInt8 → Prop
  /-- Bits of the payload are turned over, all of them within sixteen in a row. -/
  | burst (pattern : List UInt8) (length : headerSize + pattern.length = frame.length)
      (burst : Checksum.Burst 16 (Checksum.bits pattern)) :
      Corrupted frame
        (frame.take headerSize ++ Checksum.disturb (frame.drop headerSize) pattern)
  /-- An odd number of bits of the payload are turned over. -/
  | odd (pattern : List UInt8) (length : headerSize + pattern.length = frame.length)
      (odd : (Checksum.bits pattern).count true % 2 = 1) :
      Corrupted frame
        (frame.take headerSize ++ Checksum.disturb (frame.drop headerSize) pattern)
  /-- The checksum is another one, and everything else is as it was. -/
  | checksum {received : List UInt8} (before : received.take 2 = frame.take 2)
      (behind : received.drop 6 = frame.drop 6) (ne : received ≠ frame) : Corrupted frame received

/-! ### Frames with any checksum -/

/-- A frame whose checksum may be wrong. -/
def pack (field text : List UInt8) : List UInt8 :=
  version :: jsonType :: (field ++ (word text.length ++ text))

theorem header_append (payload : List UInt8) (h : text.length = payload.length) :
    header payload ++ text = pack (word (Checksum.ofBytes payload).toNat) text := by
  rw [header, pack, h, List.cons_append, List.cons_append, List.append_assoc]

theorem length_word (n : Nat) : (word n).length = 4 :=
  rfl

theorem word_ofWord_of_length (hf : field.length = 4) : word (ofWord field) = field := by
  match field, hf with
  | [a, b, c, d], _ => exact word_ofWord a b c d

/-- The fields of a frame are found at their places. -/
theorem fields_pack (hf : field.length = 4) (ht : text.length ≤ maxPayload) :
    Whole (pack field text) ∧ stated (pack field text) = ofWord field ∧
      body (pack field text) = text := by
  have hmax : maxPayload = 16 * 1024 * 1024 := rfl
  have hlength : ofWord (word text.length) = text.length := ofWord_word (by omega)
  have hstated : ((pack field text).drop 2).take 4 = field := by
    show (field ++ (word text.length ++ text)).take 4 = field
    rw [← hf, List.take_left]
  have hbehind : (pack field text).drop 6 = word text.length ++ text := by
    show (field ++ (word text.length ++ text)).drop 4 = _
    rw [← hf, List.drop_left]
  have hannounced : announced (pack field text) = text.length := by
    rw [announced, hbehind, ← length_word text.length, List.take_left, hlength]
  have hbody : (pack field text).drop headerSize = text := by
    show (pack field text).drop (6 + 4) = text
    rw [← List.drop_drop, hbehind, ← length_word text.length, List.drop_left]
  refine ⟨⟨?_, ?_⟩, ?_, ?_⟩
  · have hright : headerError? (pack field text) =
        if maxPayload < announced (pack field text) then
          some (.tooLarge (announced (pack field text))) else none := rfl
    rw [hright, hannounced, if_neg (Nat.not_lt.2 ht)]
  · rw [size, hannounced, pack]
    simp only [List.length_cons, List.length_append, hf, length_word, headerSize]
    omega
  · rw [stated, hstated]
  · rw [body, hannounced, hbody, List.take_length]

/-- A frame whose checksum is wrong is taken off, and nothing else. -/
theorem decode_pack (hf : field.length = 4) (ht : text.length ≤ maxPayload)
    (hne : (Checksum.ofBytes text).toNat ≠ ofWord field) (rest : List UInt8) :
    decode (pack field text ++ rest) =
      (.error (.checksum (stated (pack field text))
        (Checksum.ofBytes (body (pack field text))).toNat), rest) := by
  obtain ⟨hwhole, hstated, hbody⟩ := fields_pack hf ht
  rw [decode_append_of_size_eq hwhole.length hwhole.header, ofPayload, hstated, hbody]
  exact congrArg (·, rest) (if_neg hne)

/-! ### Damage -/

/-- The frame of a message, with its payload. -/
theorem encode_eq_ok (he : encode m = .ok frame) :
    ∃ text, frame = header text ++ text ∧ text.length ≤ maxPayload := by
  cases hm : fits m with
  | true =>
    rw [encode_of_fits hm] at he
    cases he
    exact ⟨payload m, rfl, of_decide_eq_true hm⟩
  | false =>
    rw [encode_of_not_fits hm] at he
    cases he

/-- A disturbed payload stands behind the header of the right one. -/
theorem disturb_pack {payload pattern : List UInt8} (hmax : payload.length ≤ maxPayload)
    (hlen : headerSize + pattern.length = (header payload ++ payload).length)
    (hne : Checksum.ofBytes pattern ≠ 0) :
    ∃ field text, (header payload ++ payload).take headerSize ++
        Checksum.disturb ((header payload ++ payload).drop headerSize) pattern = pack field text ∧
      field.length = 4 ∧ text.length ≤ maxPayload ∧
      (Checksum.ofBytes text).toNat ≠ ofWord field := by
  have hpattern : pattern.length = payload.length := by
    rw [List.length_append, length_header] at hlen
    omega
  have hsame : (Checksum.disturb payload pattern).length = payload.length := by
    rw [Checksum.disturb, List.length_zipWith, hpattern, Nat.min_self]
  have hcrc : ofWord (word (Checksum.ofBytes payload).toNat) = (Checksum.ofBytes payload).toNat :=
    ofWord_word (Nat.lt_trans (UInt16.toNat_lt _) (by decide))
  refine ⟨word (Checksum.ofBytes payload).toNat, Checksum.disturb payload pattern, ?_,
    length_word _, by omega, ?_⟩
  · rw [← length_header payload, List.take_left, List.drop_left, header_append payload hsame]
  · rw [hcrc]
    exact fun he => Checksum.ofBytes_disturb_ne hpattern hne (UInt16.toNat_inj.1 he)

/-- **A corrupted frame is one whose checksum is not that of its payload.** -/
theorem Corrupted.exists_pack (he : encode m = .ok frame) (hc : Corrupted frame received) :
    ∃ field text, received = pack field text ∧ field.length = 4 ∧ text.length ≤ maxPayload ∧
      (Checksum.ofBytes text).toNat ≠ ofWord field := by
  obtain ⟨payload, rfl, hmax⟩ := encode_eq_ok he
  cases hc with
  | burst pattern hlen hburst =>
    refine disturb_pack hmax hlen ?_
    rw [Checksum.ofBytes, Checksum.extend_eq_foldl]
    exact Checksum.foldl_ne_zero_of_burst hburst
  | odd pattern hlen hodd => exact disturb_pack hmax hlen (Checksum.ofBytes_ne_zero_of_odd hodd)
  | checksum before behind ne =>
    have hfront : received.take 2 = [version, jsonType] := before
    have hbehind : received.drop 6 = word payload.length ++ payload := behind
    have hlong : 6 < received.length := by
      have hdrop := congrArg List.length hbehind
      rw [List.length_drop, List.length_append, length_word] at hdrop
      omega
    have hfield : ((received.drop 2).take 4).length = 4 := by
      rw [List.length_take, List.length_drop]
      omega
    have hreceived : received = pack ((received.drop 2).take 4) payload := by
      have hsplit : received.drop 2 = (received.drop 2).take 4 ++ received.drop 6 := by
        rw [← List.drop_drop (i := 4) (j := 2), List.take_append_drop]
      rw [pack, ← hbehind, ← hsplit]
      have happ := List.take_append_drop 2 received
      rw [hfront] at happ
      exact happ.symm
    refine ⟨_, payload, hreceived, hfield, hmax, fun hsum => ne ?_⟩
    -- A field that states the right checksum is the field that was there.
    rw [hreceived, header_append payload rfl, hsum, word_ofWord_of_length hfield]

/-- **A corrupted frame is never taken for a message, and costs only itself.** The reader finds that
the checksum which the frame states is not that of its payload, and leaves exactly what comes
behind the frame. -/
theorem decode_corrupted (he : encode m = .ok frame) (hc : Corrupted frame received)
    (rest : List UInt8) :
    decode (received ++ rest) =
      (.error (.checksum (stated received) (Checksum.ofBytes (body received)).toNat), rest) := by
  obtain ⟨field, text, rfl, hf, ht, hne⟩ := hc.exists_pack he
  exact decode_pack hf ht hne rest

/-- The last byte but one is turned over, and two bytes of the next frame follow. -/
theorem decode_corrupted_byte :
    ∃ received,
      encode (.notification ⟨"ping", none⟩) = .ok (Frame.frame (.notification ⟨"ping", none⟩)) ∧
      Corrupted (Frame.frame (.notification ⟨"ping", none⟩)) received ∧
      decode (received ++ [1, 1]) = (.error (.checksum 34502 30343), [1, 1]) := by
  let ping : Message := .notification ⟨"ping", none⟩
  let pattern : List UInt8 := List.replicate 31 0 ++ [255, 0]
  have hframe : Frame.frame ping = [1, 1, 0, 0, 134, 198, 0, 0, 0, 33, 123, 34, 106, 115, 111, 110,
      114, 112, 99, 34, 58, 34, 50, 46, 48, 34, 44, 34, 109, 101, 116, 104, 111, 100, 34, 58, 34,
      112, 105, 110, 103, 34, 125] := by decide +kernel
  have he : encode ping = .ok (Frame.frame ping) := encode_of_fits (by decide +kernel)
  have hbits : Checksum.bits pattern =
      List.replicate 248 false ++ (List.replicate 8 true ++ List.replicate 8 false) := by
    decide +kernel
  have hburst : Checksum.Burst 16 (Checksum.bits pattern) :=
    hbits ▸ Checksum.Burst.of_block (by decide) (by decide)
  have hc : Corrupted (Frame.frame ping) _ := .burst pattern (by rw [hframe]; rfl) hburst
  have main := decode_corrupted he hc [1, 1]
  have hstated : stated ((Frame.frame ping).take headerSize ++
      Checksum.disturb ((Frame.frame ping).drop headerSize) pattern) = 34502 := by
    rw [hframe]
    decide +kernel
  have hbody : (Checksum.ofBytes (body ((Frame.frame ping).take headerSize ++
      Checksum.disturb ((Frame.frame ping).drop headerSize) pattern))).toNat = 30343 := by
    rw [hframe]
    decide +kernel
  rw [hstated, hbody] at main
  exact ⟨_, he, hc, main⟩

end Frame
end Switchboard
