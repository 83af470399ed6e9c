import Switchboard.Proofs.Frame.Prefix
import Switchboard.Session.Reading

/-!
# What a reader makes of a stream

A reader gets chunks, keeps a buffer, and hands messages to the session in between. What it makes of
a stream can be said without any of this: it takes in the messages of the right frames that the
stream begins with, in their order, and what follows them decides how it ends.

`listen_of_holds` says so by induction over the loop. The buffer and the chunks that are still to
come make up what is left of the stream at any time, and `decode_append` says that the buffer
alone is judged as all of it would be. `listen_eq` is the main statement.
-/

namespace Switchboard
namespace Session

variable {α : Type} {unhandled : Message → Session × α → Session × α} {state : Session × α}
  {buffer rest front : List UInt8} {chunks : List (List UInt8)} {m : Message} {ms : List Message}
  {e : Frame.End}

/-- Takes messages in one after another; those handed back. -/
def handleAll : List Message → Session → List Message × Session
  | [], s => ([], s)
  | m :: ms, s =>
    let (back, s) := s.handle m
    let (more, s) := handleAll ms s
    (back.toList ++ more, s)

/-! ### One turn of the loop -/

theorem listen_of_message (h : Frame.decode buffer = (.message m, rest)) :
    listen unhandled buffer chunks state =
      listen unhandled rest chunks (feed unhandled state m) := by
  rw [listen]
  split <;> rename_i hd <;> rw [h] at hd
  · cases hd
    rfl
  · cases hd
  · cases hd

theorem listen_of_error {err : Frame.Error} (h : (Frame.decode buffer).1 = .error err) :
    listen unhandled buffer chunks state = (.broken err, state) := by
  rw [listen]
  split <;> rename_i hd <;> rw [hd] at h
  · cases h
  · cases h
    rfl
  · cases h

theorem listen_nil_of_more (h : (Frame.decode buffer).1 = .more) :
    listen unhandled buffer [] state = (if buffer.isEmpty then .clean else .torn, state) := by
  rw [listen]
  split <;> rename_i hd <;> rw [Frame.decode_of_more h] at hd <;> cases hd
  rfl

theorem listen_cons_of_more {chunk : List UInt8} (h : (Frame.decode buffer).1 = .more) :
    listen unhandled buffer (chunk :: chunks) state =
      listen unhandled (buffer ++ chunk) chunks state := by
  rw [listen]
  split <;> rename_i hd <;> rw [Frame.decode_of_more h] at hd <;> cases hd
  rfl

/-! ### The whole loop -/

/-- **The loop takes in the right frames that are there, and ends as what follows them says.** -/
theorem listen_of_holds (hstream : buffer ++ chunks.flatten = front ++ rest)
    (hh : Frame.Holds front ms) (he : Frame.Ends rest e) :
    listen unhandled buffer chunks state = (e, ms.foldl (feed unhandled) state) := by
  induction buffer, chunks, state using listen.induct unhandled generalizing front ms with
  | case1 buffer chunks state m more hd ih =>
    have happ := Frame.decode_append (by rw [hd]; exact Frame.Decoded.noConfusion) chunks.flatten
    rw [hstream, hd] at happ
    obtain ⟨front', ms', rfl, hmore, hh'⟩ := hh.of_decode_message he happ
    rw [listen_of_message hd, ih hmore hh', List.foldl_cons]
  | case2 buffer chunks state err more hd =>
    have happ := Frame.decode_append (by rw [hd]; exact Frame.Decoded.noConfusion) chunks.flatten
    rw [hstream, hd] at happ
    have hne : ∀ m, (Frame.decode (front ++ rest)).1 ≠ .message m := by
      intro m hm
      rw [happ] at hm
      cases hm
    obtain ⟨rfl, rfl⟩ := hh.of_decode_ne_message hne
    have hend := he.eq_of_decode
    rw [List.nil_append] at happ
    rw [happ] at hend
    rw [listen_of_error (by rw [hd]), hend, List.foldl_nil]
  | case3 buffer state more hd =>
    rw [List.flatten_nil, List.append_nil] at hstream
    have hne : ∀ m, (Frame.decode (front ++ rest)).1 ≠ .message m := by
      intro m hm
      rw [← hstream, hd] at hm
      cases hm
    obtain ⟨rfl, rfl⟩ := hh.of_decode_ne_message hne
    rw [List.nil_append] at hstream
    subst hstream
    have hend := he.eq_of_decode
    rw [hd] at hend
    rw [listen_nil_of_more (by rw [hd]), hend, List.foldl_nil]
  | case4 buffer state more hd chunk chunks ih =>
    have hmore : (Frame.decode buffer).1 = .more := congrArg Prod.fst hd
    rw [Frame.decode_of_more hmore] at hd
    cases hd
    rw [List.flatten_cons, ← List.append_assoc] at hstream
    rw [listen_cons_of_more hmore, ih hstream hh]

/-- Reading hands back what the session hands back, message by message. -/
theorem foldl_feed_eq (ms : List Message) (s : Session) (back : List Message) :
    ms.foldl (feed fun m (s, back) => (s, back ++ [m])) (s, back) =
      ((handleAll ms s).2, back ++ (handleAll ms s).1) := by
  induction ms generalizing s back with
  | nil => rw [handleAll, List.append_nil, List.foldl_nil]
  | cons m ms ih =>
    rw [List.foldl_cons]
    rcases hm : s.handle m with ⟨_ | m', s'⟩
    · have hfeed : feed (fun m (s, back) => (s, back ++ [m])) (s, back) m = (s', back) := by
        simp only [feed, hm]
      rw [hfeed, ih]
      simp only [handleAll, hm, Option.toList_none, List.nil_append]
    · have hfeed : feed (fun m (s, back) => (s, back ++ [m])) (s, back) m =
          (s', back ++ [m']) := by
        simp only [feed, hm]
      rw [hfeed, ih]
      simp only [handleAll, hm, Option.toList_some, List.append_assoc]

/-- **A reader takes in the right frames that a stream begins with, and stops for good behind
them.** The stream falls apart into these and what ends it, in one way only, and no other right
frames at its front are more. However the stream was cut into chunks, the session gets exactly their
messages in their order, and `unhandled` what is handed back.

The end is clean if nothing follows. If a frame is cut off, by the header or behind a header that is
right, bytes remain on the stream. If a frame is wrong, the reader says what is wrong with it, and
whatever else comes behind that frame makes no difference. -/
theorem listen_eq (unhandled : Message → Session × α → Session × α) (state : Session × α)
    (chunks : List (List UInt8)) (words : Json.Fault → String) :
    ∃ front ms rest e,
      (chunks.flatten = front ++ rest ∧ Frame.Holds front ms ∧ Frame.Ends rest e) ∧
      (∀ front' ms' rest', chunks.flatten = front' ++ rest' → Frame.Holds front' ms' →
        front' <+: front ∧ ms' <+: ms) ∧
      (∀ e', Frame.Ends rest e' → e' = e) ∧
      listen unhandled [] chunks state = (e, ms.foldl (feed unhandled) state) ∧
      (∀ s : Session, s.read chunks = (e, (handleAll ms s).2, (handleAll ms s).1)) ∧
      (e.failure? words = none ↔ rest = []) ∧
      (Frame.Cut rest → e.failure? words = some ⟨.other, "bytes remaining on stream"⟩) ∧
      ∀ bad tail err, rest = bad ++ tail → Frame.Wrong bad err →
        e.failure? words = some ⟨.invalidData, err.text words⟩ ∧
        ∀ chunks' tail', chunks'.flatten = front ++ (bad ++ tail') →
          listen unhandled [] chunks' state = listen unhandled [] chunks state := by
  obtain ⟨front, ms, rest, e, hstream, hh, he⟩ := Frame.exists_holds_ends chunks.flatten
  have hlisten : ∀ {β : Type} (u : Message → Session × β → Session × β) (st : Session × β),
      listen u [] chunks st = (e, ms.foldl (feed u) st) := by
    intro β u st
    exact listen_of_holds hstream hh he
  refine ⟨front, ms, rest, e, ⟨hstream, hh, he⟩, ?_, fun e' he' => he'.unique he,
    hlisten unhandled state, ?_, ?_, ?_, ?_⟩
  · intro front' ms' rest' hstream' hh'
    exact hh.longest he hh' (hstream.symm.trans hstream')
  · intro s
    rw [read, hlisten, foldl_feed_eq, List.nil_append]
  · constructor
    · intro hnone
      cases he with
      | clean => rfl
      | torn | broken => cases hnone
    · rintro rfl
      rw [he.unique .clean]
      rfl
  · intro hcut
    rw [he.unique (.torn hcut)]
    rfl
  · rintro bad tail err rfl hwrong
    obtain rfl := he.unique (.broken hwrong tail)
    refine ⟨rfl, fun chunks' tail' hstream' => ?_⟩
    rw [hlisten, listen_of_holds hstream' hh (.broken hwrong tail')]

end Session
end Switchboard
