import Switchboard.Frame.Stream
import Switchboard.Proofs.Json.RoundTrip
import Switchboard.Proofs.Message.RoundTrip

/-!
# Streams of frames read back

A message is `Portable` if its wire form is integral and not nested too deep. Whatever messages are
appended to a buffer, those that are too large leave no trace, and the others are taken off again
in their order: `drain_appendAll`.
-/

namespace Switchboard

namespace Message

/-- A message whose wire form reads back: its numbers are integers of at most 64 bits, its objects
are in order, and it is nested at most 127 deep. -/
structure Portable (m : Message) : Prop where
  integral : m.toJson.Integral
  depth : m.toJson.depth ≤ Json.maxDepth

theorem Portable.parse {m : Message} (hm : m.Portable) : parse m.toJson.bytes = .ok m.normal := by
  rw [Message.parse, Json.read_bytes hm.integral hm.depth]
  exact ofJson_toJson m

/-- Without parameters there is nothing in a notification that would not read back. -/
theorem portable_notification (method : String) :
    (Message.notification ⟨method, none⟩).Portable := by
  constructor
  · rw [toJson_notification]
    refine ⟨?_, trivial, trivial, trivial⟩
    simp only [Json.Members.Sorted, Option.toList_none, List.map_nil, List.append_nil,
      List.pairwise_pair]
    decide
  · rw [toJson_notification]
    show 1 ≤ Json.maxDepth
    decide

end Message

namespace Frame

/-- The text of a message, as it is sent. -/
def payload (m : Message) : List UInt8 :=
  m.toJson.bytes

/-- Whether a message has a frame. -/
def fits (m : Message) : Bool :=
  (payload m).length ≤ maxPayload

/-- The header of a message and its text behind it. -/
def frame (m : Message) : List UInt8 :=
  header (payload m) ++ payload m

/-- What comes of appending a message. -/
def verdict (m : Message) : Except Error Unit :=
  if fits m then .ok () else .error (.tooLarge (payload m).length)

/-! ### One frame -/

theorem encode_of_fits {m : Message} (hm : fits m = true) : encode m = .ok (frame m) :=
  if_pos (of_decide_eq_true hm)

theorem encode_of_not_fits {m : Message} (hm : fits m = false) :
    encode m = .error (.tooLarge (payload m).length) :=
  if_neg (of_decide_eq_false hm)

/-- **A message that fits is appended, another leaves the buffer as it is.** -/
theorem append_eq (buffer : List UInt8) (m : Message) :
    append buffer m = (verdict m, if fits m then buffer ++ frame m else buffer) := by
  cases hm : fits m with
  | true => rw [append, encode_of_fits hm, verdict, if_pos hm, if_pos rfl]
  | false => simp only [append, encode_of_not_fits hm, verdict, hm, Bool.false_eq_true, if_false]

/-- A frame is taken off whatever follows it. -/
theorem decode_header_append {bs : List UInt8} (hbs : bs.length ≤ maxPayload) (rest : List UInt8) :
    decode (header bs ++ bs ++ rest) = (ofPayload (Checksum.ofBytes bs).toNat bs, rest) := by
  have hmax : maxPayload = 16 * 1024 * 1024 := rfl
  have hlength : ofWord (word bs.length) = bs.length := ofWord_word (by omega)
  have hcrc : ofWord (word (Checksum.ofBytes bs).toNat) = (Checksum.ofBytes bs).toNat :=
    ofWord_word (Nat.lt_trans (UInt16.toNat_lt _) (by decide))
  rw [word] at hlength hcrc
  have hlarge : ¬ maxPayload < bs.length := by omega
  rw [List.append_assoc, header]
  simp only [word, List.cons_append, List.nil_append, decode, ne_eq, not_true_eq_false, if_false,
    hlength, hcrc, hlarge, List.take_left, List.drop_left, Nat.lt_irrefl]

theorem decode_frame {m : Message} (hm : m.Portable) (hfits : fits m = true) (rest : List UInt8) :
    decode (frame m ++ rest) = (.message m.normal, rest) := by
  have hparse : Message.parse (payload m) = .ok m.normal := hm.parse
  rw [frame, decode_header_append (of_decide_eq_true hfits), ofPayload, hparse]
  simp only [if_true]

/-! ### Streams -/

theorem appendAll_eq (ms : List Message) (buffer : List UInt8) :
    appendAll ms buffer = (ms.map verdict, buffer ++ (ms.filter fits).flatMap frame) := by
  induction ms generalizing buffer with
  | nil => rw [appendAll, List.filter_nil, List.flatMap_nil, List.append_nil, List.map_nil]
  | cons m ms ih =>
    simp only [appendAll, append_eq, ih, List.map_cons]
    cases hm : fits m <;> simp [hm]

theorem drain_of_message {buffer rest : List UInt8} {m : Message}
    (h : decode buffer = (.message m, rest)) :
    drain buffer = { drain rest with messages := m :: (drain rest).messages } := by
  rw [drain]
  split <;> rename_i he <;> rw [h] at he
  · obtain ⟨hm, rfl⟩ := Prod.mk.inj he
    rw [Decoded.message.inj hm]
  · exact absurd he (by simp)
  · exact absurd he (by simp)

theorem drain_flatMap_frame {ms : List Message} (hms : ∀ m ∈ ms, m.Portable ∧ fits m = true) :
    drain (ms.flatMap frame) = ⟨ms.map Message.normal, none, []⟩ := by
  induction ms with
  | nil =>
    rw [List.flatMap_nil, drain]
    rfl
  | cons m ms ih =>
    obtain ⟨hm, hfits⟩ := hms m List.mem_cons_self
    have hrest := ih fun x hx => hms x (List.mem_cons_of_mem m hx)
    rw [List.flatMap_cons, drain_of_message (decode_frame hm hfits _), hrest]
    rfl

/-- **What is appended is taken off again.** Appending a message to a buffer fails if its text is
too large, and then leaves the buffer as it is; otherwise it only adds the header and the text. From
a buffer that was empty at first, exactly the messages that were not refused are taken off, in their
order, and nothing is left. -/
theorem drain_appendAll (ms : List Message) (hms : ∀ m ∈ ms, m.Portable) (buffer : List UInt8) :
    (∀ m ∈ ms, append buffer m = (verdict m, if fits m then buffer ++ frame m else buffer)) ∧
      appendAll ms buffer = (ms.map verdict, buffer ++ (ms.filter fits).flatMap frame) ∧
      drain (appendAll ms []).2 = ⟨(ms.filter fits).map Message.normal, none, []⟩ := by
  refine ⟨fun m _ => append_eq buffer m, appendAll_eq ms buffer, ?_⟩
  rw [appendAll_eq, List.nil_append]
  refine drain_flatMap_frame fun m hm => ?_
  obtain ⟨hmem, hfits⟩ := List.mem_filter.1 hm
  exact ⟨hms m hmem, hfits⟩

/-- An error whose data are `null`, and a request behind it. -/
theorem drain_appendAll_null :
    drain (appendAll [.response ⟨.number 1, .failure ⟨-32603, "no", some .null⟩⟩,
        .request ⟨.text "a", "ping", some (.arr [.int (-5)])⟩] []).2 =
      ⟨[.response ⟨.number 1, .failure ⟨-32603, "no", none⟩⟩,
        .request ⟨.text "a", "ping", some (.arr [.int (-5)])⟩], none, []⟩ := by
  let refusal : Message := .response ⟨.number 1, .failure ⟨-32603, "no", some .null⟩⟩
  let ping : Message := .request ⟨.text "a", "ping", some (.arr [.int (-5)])⟩
  have hms : ∀ m ∈ [refusal, ping], m.Portable := by
    intro m hm
    rw [List.mem_cons, List.mem_singleton] at hm
    rcases hm with rfl | rfl
    · refine ⟨?_, by decide⟩
      rw [Message.toJson_failure, ErrorObject.toJson_mk]
      have hcode : Json.inRange (-32603 : Int64).toInt := ⟨by decide, by decide⟩
      have hid : Json.inRange (1 : Int64).toInt := ⟨by decide, by decide⟩
      refine ⟨by unfold Json.Members.Sorted; decide, ?_, hid, trivial, trivial⟩
      exact ⟨by unfold Json.Members.Sorted; decide, hcode, trivial, trivial, trivial⟩
    · refine ⟨?_, by decide⟩
      rw [Message.toJson_request]
      have hparam : Json.inRange (-5) := ⟨by decide, by decide⟩
      exact ⟨by unfold Json.Members.Sorted; decide, trivial, trivial, trivial, ⟨hparam, trivial⟩,
        trivial⟩
  have hfits : [refusal, ping].filter fits = [refusal, ping] := by
    decide +kernel
  have main := (drain_appendAll _ hms []).2.2
  rw [hfits] at main
  exact main

end Frame
end Switchboard
