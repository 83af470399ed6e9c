import Mathlib.Data.List.TakeWhile
import Switchboard.Proofs.Frame.Prefix
import Switchboard.Writer

/-!
# What a writer puts on a stream

A stream takes `limit` bytes and then fails. Whatever is queued, the writer puts the front of one
text on it: the frames of the messages one behind the other, up to the first message that is too
large (`bytesOf`). It exits as soon as it cannot put all of this text there, or comes to that
message. `Wrote` says both of the messages that the writer has had so far, and holds on as it gets
more of them (`Wrote.putAll`), also behind its exit: what it would have had to write then lies
behind what the stream has taken.
-/

namespace Switchboard

namespace Frame

/-- A message that fits and reads back travels in a right frame. -/
theorem carries_frame {m : Message} (hfits : fits m = true)
    (hparse : Message.parse (payload m) = .ok m) : Carries (frame m) m :=
  carries_iff.2 ⟨payload m, rfl, of_decide_eq_true hfits, hparse⟩

/-- **A reader of frames that are cut off somewhere gets the messages before the cut.** -/
theorem drain_take_flatMap_frame {ms : List Message} (hms : ∀ m ∈ ms, Carries (frame m) m)
    (n : Nat) :
    ∃ got rest, got <+: ms ∧ (ms.flatMap frame).take n = got.flatMap frame ++ rest ∧
      drain ((ms.flatMap frame).take n) = ⟨got, none, rest⟩ ∧
      ((ms.flatMap frame).length ≤ n → got = ms ∧ rest = []) := by
  induction ms generalizing n with
  | nil =>
    refine ⟨[], [], List.nil_prefix, ?_, ?_, fun _ => ⟨rfl, rfl⟩⟩
    · rw [List.flatMap_nil, List.take_nil, List.append_nil]
    · rw [List.flatMap_nil, List.take_nil, drain_of_more rfl]
  | cons m ms ih =>
    have hm := hms m List.mem_cons_self
    rw [List.flatMap_cons, List.take_append]
    by_cases hn : n < (frame m).length
    · -- The cut is inside the first frame.
      have hzero : n - (frame m).length = 0 := by omega
      refine ⟨[], (frame m).take n, List.nil_prefix, ?_, ?_, fun hlen => ?_⟩
      · rw [hzero, List.take_zero, List.append_nil, List.flatMap_nil, List.nil_append]
      · rw [hzero, List.take_zero, List.append_nil, drain_of_more (hm.decode_take hn)]
      · rw [List.length_append] at hlen
        omega
    · rw [List.take_of_length_le (Nat.not_lt.1 hn)]
      obtain ⟨got, rest, hgot, hbytes, hdrain, hall⟩ :=
        ih (fun x hx => hms x (List.mem_cons_of_mem m hx)) (n - (frame m).length)
      refine ⟨m :: got, rest, List.cons_prefix_cons.2 ⟨rfl, hgot⟩, ?_, ?_, fun hlen => ?_⟩
      · rw [hbytes, List.flatMap_cons, List.append_assoc]
      · rw [drain_of_message (hm.decode _), hdrain]
      · rw [List.length_append] at hlen
        obtain ⟨rfl, rfl⟩ := hall (by omega)
        exact ⟨rfl, rfl⟩

end Frame

namespace Writer

open Switchboard.Frame (fits frame)

variable {limit : Nat} {w : Writer} {m : Message} {ms : List Message}

/-! ### Queueing -/

theorem sendAll_of_not_exited (hw : w.hasExited = false) (ms : List Message) :
    w.sendAll ms = (ms.map fun _ => .ok (),
      { w with queue := w.queue ++ ms, accepted := w.accepted + ms.length }) := by
  induction ms generalizing w with
  | nil => simp only [sendAll, List.map_nil, List.append_nil, List.length_nil, Nat.add_zero]
  | cons m ms ih =>
    have hrest := ih (w := { w with queue := w.queue ++ [m], accepted := w.accepted + 1 }) hw
    simp only [sendAll, send, hw, Bool.false_eq_true, if_false] at hrest ⊢
    simp only [hrest, List.map_cons, List.append_assoc, List.singleton_append, List.length_cons,
      Nat.add_assoc, Nat.add_comm 1]

theorem send_of_exited (hw : w.hasExited = true) (m : Message) : w.send m = .error gone :=
  if_pos hw

/-- **A writer that has exited gets nothing more.** -/
theorem sendAll_of_exited (hw : w.hasExited = true) (ms : List Message) :
    w.sendAll ms = (ms.map fun _ => .error gone, w) := by
  induction ms with
  | nil => rfl
  | cons m ms ih => simp only [sendAll, send_of_exited hw, ih, List.map_cons]

/-! ### Writing -/

/-- What there is to write of some messages: their frames, up to the first message that has none. -/
def bytesOf (ms : List Message) : List UInt8 :=
  (ms.takeWhile fits).flatMap frame

/-- A stream that takes `limit` bytes does not take these messages: one of them has no frame, or
their frames are too much. -/
def Exceeds (limit : Nat) (ms : List Message) : Prop :=
  (∃ m ∈ ms, fits m = false) ∨ limit < (bytesOf ms).length

/-- What has become of a writer that had these messages to write. -/
structure Wrote (limit : Nat) (ms : List Message) (w : Writer) : Prop where
  written : w.written = (bytesOf ms).take limit
  hasExited : w.hasExited = true ↔ Exceeds limit ms
  room : w.hasExited = false → w.room = some (limit - (bytesOf ms).length)

theorem bytesOf_singleton_of_fits (hm : fits m = true) : bytesOf [m] = frame m := by
  rw [bytesOf, List.takeWhile_cons_of_pos hm, List.takeWhile_nil, List.flatMap_singleton]

theorem bytesOf_singleton_of_not_fits (hm : fits m = false) : bytesOf [m] = [] := by
  rw [bytesOf, List.takeWhile_cons_of_neg (Bool.eq_false_iff.1 hm), List.flatMap_nil]

theorem bytesOf_append {ms : List Message} (hms : ∀ m ∈ ms, fits m = true) (more : List Message) :
    bytesOf (ms ++ more) = bytesOf ms ++ bytesOf more := by
  have hall : ms.takeWhile fits = ms := List.takeWhile_eq_self_iff.2 hms
  rw [bytesOf, bytesOf, bytesOf, List.takeWhile_append_of_pos hms, hall, List.flatMap_append]

theorem bytesOf_append_of_not_fits {ms : List Message} (hm : ∃ m ∈ ms, fits m = false)
    (more : List Message) : bytesOf (ms ++ more) = bytesOf ms := by
  have hlen : (ms.takeWhile fits).length ≠ ms.length := by
    intro hlen
    obtain ⟨m, hmem, hfits⟩ := hm
    have hall := List.takeWhile_eq_self_iff.1 ((List.takeWhile_prefix fits).eq_of_length hlen)
    rw [hall m hmem] at hfits
    cases hfits
  rw [bytesOf, bytesOf, List.takeWhile_append, if_neg hlen]

theorem not_exceeds : ¬ Exceeds limit ms ↔
    (∀ m ∈ ms, fits m = true) ∧ (bytesOf ms).length ≤ limit := by
  simp only [Exceeds, not_or, not_exists, not_and, Bool.not_eq_false, Nat.not_lt]

/-- What comes behind messages that are too much makes no difference. -/
theorem Exceeds.append (h : Exceeds limit ms) (more : List Message) :
    Exceeds limit (ms ++ more) ∧ (bytesOf (ms ++ more)).take limit = (bytesOf ms).take limit := by
  by_cases hm : ∃ m ∈ ms, fits m = false
  · refine ⟨.inl ?_, by rw [bytesOf_append_of_not_fits hm]⟩
    obtain ⟨m, hmem, hfits⟩ := hm
    exact ⟨m, List.mem_append_left _ hmem, hfits⟩
  · have hlen : limit < (bytesOf ms).length := h.resolve_left hm
    have hms : ∀ m ∈ ms, fits m = true := by
      intro m hmem
      by_contra hfits
      exact hm ⟨m, hmem, Bool.eq_false_iff.2 hfits⟩
    refine ⟨.inr ?_, ?_⟩
    · rw [bytesOf_append hms, List.length_append]
      omega
    · rw [bytesOf_append hms, List.take_append_of_le_length (Nat.le_of_lt hlen)]

theorem put_of_not_fits (hm : fits m = false) : w.put m = { w with hasExited := true } := by
  simp only [put, Frame.encode_of_not_fits hm]

theorem put_of_fits {n : Nat} (hroom : w.room = some n) (hm : fits m = true) :
    w.put m =
      { w with
        room := some (n - (frame m).length)
        written := w.written ++ (frame m).take n
        hasExited := decide (n < (frame m).length) } := by
  simp only [put, Frame.encode_of_fits hm, hroom]
  rfl

/-- One more message, while the writer is there. -/
theorem Wrote.put (hw : Wrote limit ms w) (hlive : w.hasExited = false) (m : Message) :
    Wrote limit (ms ++ [m]) (w.put m) := by
  have hroom := hw.room hlive
  have hnot : ¬ Exceeds limit ms := by
    rw [← hw.hasExited, hlive]
    exact Bool.false_ne_true
  obtain ⟨hms, hlen⟩ := not_exceeds.1 hnot
  have hbytes := bytesOf_append hms [m]
  cases hm : fits m with
  | false =>
    rw [bytesOf_singleton_of_not_fits hm, List.append_nil] at hbytes
    rw [put_of_not_fits hm]
    constructor
    · rw [hbytes]
      exact hw.written
    · exact iff_of_true rfl (.inl ⟨m, List.mem_append_right _ List.mem_cons_self, hm⟩)
    · intro h
      cases h
  | true =>
    have hall : ∀ x ∈ ms ++ [m], fits x = true := by
      intro x hx
      rcases List.mem_append.1 hx with hx | hx
      · exact hms x hx
      · rw [List.mem_singleton.1 hx, hm]
    rw [bytesOf_singleton_of_fits hm] at hbytes
    rw [put_of_fits hroom hm]
    constructor
    · rw [hbytes, hw.written, List.take_append, List.take_of_length_le hlen]
    · rw [decide_eq_true_iff, ← not_iff_not, not_exceeds, hbytes, List.length_append]
      constructor
      · intro h
        exact ⟨hall, by omega⟩
      · rintro ⟨-, h⟩
        omega
    · intro _
      rw [hbytes, List.length_append, Nat.sub_sub]

theorem putAll_of_exited (hw : w.hasExited = true) (ms : List Message) : putAll ms w = w := by
  cases ms with
  | nil => rfl
  | cons m ms => exact if_pos hw

/-- **More messages, whether the writer is there or not.** -/
theorem Wrote.putAll (hw : Wrote limit ms w) (more : List Message) :
    Wrote limit (ms ++ more) (putAll more w) := by
  induction more generalizing ms w with
  | nil => rwa [List.append_nil]
  | cons m more ih =>
    by_cases hexit : w.hasExited = true
    · obtain ⟨hexceeds, hbytes⟩ := (hw.hasExited.1 hexit).append (m :: more)
      rw [putAll_of_exited hexit]
      constructor
      · rw [hw.written, hbytes]
      · exact iff_of_true hexit hexceeds
      · intro h
        rw [hexit] at h
        cases h
    · have hput := ih (hw.put (Bool.eq_false_iff.2 hexit) m)
      rw [List.append_assoc] at hput
      rwa [Writer.putAll, if_neg hexit]

/-- A writer on a stream that takes `limit` bytes. -/
theorem wrote_start (limit : Nat) : Wrote limit [] { room := some limit } := by
  constructor
  · exact (List.take_nil).symm
  · refine iff_of_false Bool.false_ne_true ?_
    rw [not_exceeds]
    exact ⟨fun m hm => absurd hm List.not_mem_nil, Nat.zero_le _⟩
  · intro _
    rfl

/-- Messages are queued while the writer waits, and then it goes on. -/
theorem Wrote.flush (hw : Wrote limit ms w) (hqueue : w.queue = []) (more : List Message) :
    Wrote limit (ms ++ more) (w.sendAll more).2.flush := by
  by_cases hexit : w.hasExited = true
  · have hput := hw.putAll more
    rw [putAll_of_exited hexit] at hput
    rw [sendAll_of_exited hexit, Writer.flush, putAll_of_exited hexit]
    exact ⟨hput.written, hput.hasExited, hput.room⟩
  · have hqueued : Wrote limit ms
        { w with queue := w.queue ++ more, accepted := w.accepted + more.length } :=
      ⟨hw.written, hw.hasExited, hw.room⟩
    have hput := hqueued.putAll more
    rw [sendAll_of_not_exited (Bool.eq_false_iff.2 hexit), Writer.flush]
    rw [hqueue, List.nil_append] at hput ⊢
    exact ⟨hput.written, hput.hasExited, hput.room⟩

/-- A writer that has exited writes nothing more. -/
theorem flush_of_exited (hw : w.hasExited = true) :
    w.flush.written = w.written ∧ w.flush.hasExited = true := by
  rw [flush, putAll_of_exited hw]
  exact ⟨rfl, hw⟩

/-- **The writer puts a prefix of the queue on the stream, and never anything else.** On a stream
that takes `limit` bytes it writes the first `limit` bytes there are to write, of the messages
queued at first and of those queued later if it has not exited by then. It exits exactly when these
are too much for the stream; from then on every message is refused with a broken pipe and nothing
is added.

If the messages read back, the other side gets a prefix of the queue and waits for more; it gets
all of it if the writer has not exited. -/
theorem writes_prefix (limit : Nat) (queued later : List Message) :
    let start : Writer := { room := some limit }
    let early := (start.sendAll queued).2.flush
    let final := (early.sendAll later).2.flush
    let accepted := if early.hasExited then queued else queued ++ later
    (start.sendAll queued).1 = queued.map (fun _ => .ok ()) ∧
    early.written = (bytesOf queued).take limit ∧
    (early.hasExited = true ↔ Exceeds limit queued) ∧
    (early.sendAll later).1 = later.map (fun _ => if early.hasExited then .error gone else .ok ()) ∧
    final.written = (bytesOf accepted).take limit ∧
    (final.hasExited = true ↔ Exceeds limit accepted) ∧
    gone.kind = .brokenPipe ∧
    (∀ w : Writer, w.hasExited = true →
      (∀ ms, w.sendAll ms = (ms.map fun _ => .error gone, w)) ∧
        w.flush.written = w.written ∧ w.flush.hasExited = true) ∧
    ((∀ m ∈ accepted, fits m = true → Message.parse (Frame.payload m) = .ok m) →
      ∃ got rest, Frame.drain final.written = ⟨got, none, rest⟩ ∧ got <+: accepted ∧
        final.written = got.flatMap frame ++ rest ∧
        (final.hasExited = false → got = accepted ∧ rest = [])) := by
  intro start early final accepted
  have hstart : Wrote limit [] start := wrote_start limit
  have hearly : Wrote limit queued early := hstart.flush rfl queued
  have hfinal : Wrote limit accepted final := by
    by_cases hexit : early.hasExited = true
    · have hqueue : accepted = queued := if_pos hexit
      have hsame : final = early := by
        show (early.sendAll later).2.flush = early
        rw [sendAll_of_exited hexit, flush, putAll_of_exited hexit]
        rfl
      rw [hqueue, hsame]
      exact hearly
    · have hqueue : accepted = queued ++ later := if_neg hexit
      rw [hqueue]
      exact hearly.flush rfl later
  refine ⟨?_, hearly.written, hearly.hasExited, ?_, hfinal.written, hfinal.hasExited, rfl,
    fun w hw => ⟨sendAll_of_exited hw, flush_of_exited hw⟩, fun hparse => ?_⟩
  · rw [sendAll_of_not_exited rfl]
  · cases hexit : early.hasExited with
    | true => simp only [sendAll_of_exited hexit, if_true]
    | false => simp only [sendAll_of_not_exited hexit, Bool.false_eq_true, if_false]
  · have hcarries : ∀ m ∈ accepted.takeWhile fits, Frame.Carries (frame m) m := by
      intro m hm
      have hfits : fits m = true := List.mem_takeWhile_imp hm
      exact Frame.carries_frame hfits
        (hparse m ((List.takeWhile_prefix fits).subset hm) hfits)
    obtain ⟨got, rest, hgot, hbytes, hdrain, hall⟩ :=
      Frame.drain_take_flatMap_frame hcarries limit
    rw [hfinal.written]
    refine ⟨got, rest, hdrain, hgot.trans (List.takeWhile_prefix fits), hbytes, fun hlive => ?_⟩
    have hnot : ¬ Exceeds limit accepted := by
      rw [← hfinal.hasExited, hlive]
      exact Bool.false_ne_true
    obtain ⟨hfits, hlen⟩ := not_exceeds.1 hnot
    obtain ⟨rfl, rfl⟩ := hall hlen
    exact ⟨List.takeWhile_eq_self_iff.2 hfits, rfl⟩

/-- The stream takes the first of two frames and three bytes of the second one; what is queued later
is refused. -/
theorem writes_prefix_inside_header :
    let ping : Message := .notification ⟨"ping", none⟩
    let start : Writer := { room := some ((frame ping).length + 3) }
    let early := (start.sendAll [ping, ping]).2.flush
    early.hasExited = true ∧ (early.sendAll [ping]).1 = [.error gone] ∧
      ∃ got rest, Frame.drain (early.sendAll [ping]).2.flush.written = ⟨got, none, rest⟩ ∧
        got <+: [ping, ping] := by
  intro ping start early
  obtain ⟨-, -, hexit, hlate, -, -, -, -, hread⟩ :=
    writes_prefix ((frame ping).length + 3) [ping, ping] [ping]
  have hexceeds : Exceeds ((frame ping).length + 3) [ping, ping] := by
    right
    decide +kernel
  have hearly : early.hasExited = true := hexit.2 hexceeds
  have hparse : Message.parse (Frame.payload ping) = .ok ping :=
    (Message.portable_notification "ping").parse
  have hqueue : (if early.hasExited = true then [ping, ping] else [ping, ping] ++ [ping]) =
      [ping, ping] := if_pos hearly
  rw [hqueue] at hread
  obtain ⟨got, rest, hdrain, hgot, -⟩ := hread fun m hm _ => by
    simp only [List.mem_cons, List.not_mem_nil, or_false, or_self] at hm
    rw [hm, hparse]
  refine ⟨hearly, ?_, got, rest, hdrain, hgot⟩
  rw [hlate, List.map_singleton, if_pos hearly]

end Writer
end Switchboard
