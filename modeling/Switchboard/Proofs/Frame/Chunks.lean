import Switchboard.Proofs.Frame.RoundTrip

/-!
# Streams that arrive in chunks

A reader gets a stream in chunks. After each chunk it takes all frames off its buffer that are
there, and it stops for good at the first frame that is wrong: `Frame.drainChunks`.

What it reads does not depend on where the stream was cut (`drainChunks_congr`), because `decode`
never changes its mind: as soon as it says anything but "not a whole frame yet", more bytes behind
the buffer only end up in what is left (`decode_append`). Behind that is `decode_eq`, which says
`decode` by the fields of a header and their places.
-/

namespace Switchboard
namespace Frame

/-- What is taken off a buffer to which chunks are added one after another. -/
def drainChunks (buffer : List UInt8) : List (List UInt8) → Drained
  | [] => ⟨[], none, buffer⟩
  | chunk :: chunks =>
    let d := drain (buffer ++ chunk)
    match d.error with
    | some _ => d
    | none =>
      let more := drainChunks d.rest chunks
      { more with messages := d.messages ++ more.messages }

/-! ### The fields of a header -/

/-- The checksum that a header states. -/
def stated (buffer : List UInt8) : Nat :=
  ofWord ((buffer.drop 2).take 4)

/-- The length of the payload that a header announces. -/
def announced (buffer : List UInt8) : Nat :=
  ofWord ((buffer.drop 6).take 4)

/-- The size of the first frame, as its header announces it. -/
def size (buffer : List UInt8) : Nat :=
  headerSize + announced buffer

/-- What is wrong with a header. -/
def headerError? (buffer : List UInt8) : Option Error :=
  match buffer with
  | v :: t :: _ =>
    if v ≠ version then some (.version v)
    else if t ≠ jsonType then some (.payloadType t)
    else if maxPayload < announced buffer then some (.tooLarge (announced buffer))
    else none
  | _ => none

/-- The payload of the first frame. -/
def body (buffer : List UInt8) : List UInt8 :=
  (buffer.drop headerSize).take (announced buffer)

/-- Whether a frame has been taken off. One with a wrong header stays. -/
def Decoded.takesFrame : Decoded → Bool
  | .message _ | .error (.checksum _ _) | .error (.message _) => true
  | .more | .error (.version _) | .error (.payloadType _) | .error (.tooLarge _) => false

variable {buffer : List UInt8}

/-- **A buffer is judged by its header, and then by its payload once that is there.** -/
theorem decode_eq (buffer : List UInt8) :
    decode buffer =
      if buffer.length < headerSize then (.more, buffer)
      else
        match headerError? buffer with
        | some e => (.error e, buffer)
        | none =>
          if buffer.length < size buffer then (.more, buffer)
          else (ofPayload (stated buffer) (body buffer), buffer.drop (size buffer)) := by
  unfold decode
  split
  · rename_i v t c₁ c₂ c₃ c₄ n₁ n₂ n₃ n₄ rest
    have hlong : ¬ (v :: t :: c₁ :: c₂ :: c₃ :: c₄ :: n₁ :: n₂ :: n₃ :: n₄ :: rest).length <
        headerSize := by simp [headerSize]
    have hdrop : (v :: t :: c₁ :: c₂ :: c₃ :: c₄ :: n₁ :: n₂ :: n₃ :: n₄ :: rest).drop
        (headerSize + ofWord [n₁, n₂, n₃, n₄]) = rest.drop (ofWord [n₁, n₂, n₃, n₄]) := by
      rw [← List.drop_drop]
      rfl
    have hmore : (rest.take (ofWord [n₁, n₂, n₃, n₄])).length < ofWord [n₁, n₂, n₃, n₄] ↔
        (v :: t :: c₁ :: c₂ :: c₃ :: c₄ :: n₁ :: n₂ :: n₃ :: n₄ :: rest).length <
          headerSize + ofWord [n₁, n₂, n₃, n₄] := by
      simp only [List.length_take, List.length_cons, headerSize]
      omega
    rw [if_neg hlong]
    simp only [headerError?, announced, stated, size, body, hdrop, hmore, List.drop_succ_cons,
      List.drop_zero, List.take_succ_cons, List.take_zero]
    by_cases hv : v ≠ version
    · simp only [if_pos hv]
    · by_cases ht : t ≠ jsonType
      · simp only [if_neg hv, if_pos ht]
      · by_cases hmax : maxPayload < ofWord [n₁, n₂, n₃, n₄]
        · simp only [if_neg hv, if_neg ht, if_pos hmax]
        · simp only [if_neg hv, if_neg ht, if_neg hmax]
          rfl
  · rename_i hx
    have hshort : buffer.length < headerSize := Nat.lt_of_not_le fun hlong => by
      rcases buffer with _ | ⟨v, _ | ⟨t, _ | ⟨c₁, _ | ⟨c₂, _ | ⟨c₃, _ | ⟨c₄, _ | ⟨n₁, _ | ⟨n₂, _ |
        ⟨n₃, _ | ⟨n₄, body⟩⟩⟩⟩⟩⟩⟩⟩⟩⟩
      case cons.cons.cons.cons.cons.cons.cons.cons.cons.cons => exact hx _ _ _ _ _ _ _ _ _ _ _ rfl
      all_goals simp [headerSize] at hlong
    rw [if_pos hshort]

/-- There is not a whole frame yet, or the header is wrong, or there is a whole frame. -/
theorem decode_cases (buffer : List UInt8) :
    decode buffer = (.more, buffer) ∨
    (∃ e, headerSize ≤ buffer.length ∧ headerError? buffer = some e ∧
      decode buffer = (.error e, buffer)) ∨
    headerError? buffer = none ∧ size buffer ≤ buffer.length ∧
      decode buffer = (ofPayload (stated buffer) (body buffer), buffer.drop (size buffer)) := by
  rw [decode_eq]
  by_cases hlong : buffer.length < headerSize
  · exact .inl (if_pos hlong)
  · rw [if_neg hlong]
    cases he : headerError? buffer with
    | some e => exact .inr (.inl ⟨e, Nat.le_of_not_lt hlong, rfl, rfl⟩)
    | none =>
      by_cases hsize : buffer.length < size buffer
      · exact .inl (if_pos hsize)
      · exact .inr (.inr ⟨rfl, Nat.le_of_not_lt hsize, if_neg hsize⟩)

/-! ### More bytes behind a buffer -/

theorem stated_append (h : headerSize ≤ buffer.length) (more : List UInt8) :
    stated (buffer ++ more) = stated buffer := by
  rw [headerSize] at h
  rw [stated, stated, List.drop_append_of_le_length (by omega),
    List.take_append_of_le_length (by rw [List.length_drop]; omega)]

theorem announced_append (h : headerSize ≤ buffer.length) (more : List UInt8) :
    announced (buffer ++ more) = announced buffer := by
  rw [headerSize] at h
  rw [announced, announced, List.drop_append_of_le_length (by omega),
    List.take_append_of_le_length (by rw [List.length_drop]; omega)]

theorem headerError?_append (h : headerSize ≤ buffer.length) (more : List UInt8) :
    headerError? (buffer ++ more) = headerError? buffer := by
  have ha := announced_append h more
  rcases buffer with _ | ⟨v, _ | ⟨t, rest⟩⟩
  · simp [headerSize] at h
  · simp [headerSize] at h
  · simp only [List.cons_append] at ha ⊢
    simp only [headerError?, ha]

/-- A wrong header stays wrong. -/
theorem decode_append_of_headerError {e : Error} (h : headerSize ≤ buffer.length)
    (he : headerError? buffer = some e) (more : List UInt8) :
    decode (buffer ++ more) = (.error e, buffer ++ more) := by
  have hlong : ¬ (buffer ++ more).length < headerSize := by
    rw [List.length_append]
    omega
  rw [decode_eq, headerError?_append h, he, if_neg hlong]

/-- A whole frame is taken off, whatever is behind it. -/
theorem decode_append_of_size_eq {frame : List UInt8} (hsize : size frame = frame.length)
    (hheader : headerError? frame = none) (rest : List UInt8) :
    decode (frame ++ rest) = (ofPayload (stated frame) (body frame), rest) := by
  have hlong : headerSize ≤ frame.length := by
    rw [← hsize, size]
    omega
  have hann := announced_append hlong rest
  have hsize' : size (frame ++ rest) = frame.length := by rw [size, hann, ← size, hsize]
  have hbody : body (frame ++ rest) = body frame := by
    rw [body, body, hann, List.drop_append_of_le_length hlong, List.take_append_of_le_length]
    rw [List.length_drop, ← hsize, size]
    omega
  have hshort : ¬ (frame ++ rest).length < headerSize := by
    rw [List.length_append]
    omega
  have hcut : ¬ (frame ++ rest).length < frame.length := by
    rw [List.length_append]
    omega
  rw [decode_eq, if_neg hshort, headerError?_append hlong, hheader, hsize', stated_append hlong,
    hbody, List.drop_left]
  exact if_neg hcut

/-- The first frame of a buffer is taken off in the same way when something else is behind it. -/
theorem decode_take_size_append (hheader : headerError? buffer = none)
    (hsize : size buffer ≤ buffer.length) (more : List UInt8) :
    decode (buffer.take (size buffer) ++ more) = ((decode buffer).1, more) := by
  have hsplit := List.take_append_drop (size buffer) buffer
  have hlen : (buffer.take (size buffer)).length = size buffer := List.length_take_of_le hsize
  generalize buffer.take (size buffer) = frame at hsplit hlen ⊢
  generalize buffer.drop (size buffer) = rest at hsplit
  obtain rfl := hsplit
  have hlong : headerSize ≤ frame.length := by
    rw [hlen, size]
    omega
  have hframe : size frame = frame.length := by
    rw [hlen, size, size, announced_append hlong]
  rw [headerError?_append hlong] at hheader
  rw [decode_append_of_size_eq hframe hheader, decode_append_of_size_eq hframe hheader]

/-- **Decoding never changes its mind.** More bytes behind a buffer end up in what is left. -/
theorem decode_append (h : (decode buffer).1 ≠ .more) (more : List UInt8) :
    decode (buffer ++ more) = ((decode buffer).1, (decode buffer).2 ++ more) := by
  rcases decode_cases buffer with hd | ⟨e, hlong, he, hd⟩ | ⟨hheader, hsize, hd⟩
  · rw [hd] at h
    exact absurd rfl h
  · rw [hd, decode_append_of_headerError hlong he]
  · have happ := decode_take_size_append hheader hsize (buffer.drop (size buffer) ++ more)
    rw [← List.append_assoc, List.take_append_drop] at happ
    rw [happ, hd]

/-! ### Whether a frame is taken off -/

theorem takesFrame_of_headerError {e : Error} (he : headerError? buffer = some e) :
    (Decoded.error e).takesFrame = false := by
  unfold headerError? at he
  split at he
  · split at he
    · rw [← Option.some.inj he]
      rfl
    · split at he
      · rw [← Option.some.inj he]
        rfl
      · split at he
        · rw [← Option.some.inj he]
          rfl
        · exact absurd he nofun
  · exact absurd he nofun

theorem takesFrame_ofPayload (stated : Nat) (payload : List UInt8) :
    (ofPayload stated payload).takesFrame = true := by
  unfold ofPayload
  dsimp only
  split
  · split <;> rfl
  · rfl

/-- A buffer without a whole frame is left alone, and so is one with a wrong header. -/
theorem decode_of_not_takesFrame (h : (decode buffer).1.takesFrame = false) :
    (decode buffer).2 = buffer := by
  rcases decode_cases buffer with hd | ⟨e, -, -, hd⟩ | ⟨-, -, hd⟩
  · rw [hd]
  · rw [hd]
  · rw [hd, takesFrame_ofPayload] at h
    exact absurd h Bool.noConfusion

/-- **A frame that is taken off has the size that its header announces**, and only its own bytes
matter. -/
theorem decode_of_takesFrame (h : (decode buffer).1.takesFrame = true) :
    size buffer ≤ buffer.length ∧ (decode buffer).2 = buffer.drop (size buffer) ∧
      ∀ other, other.take (size buffer) = buffer.take (size buffer) →
        decode other = ((decode buffer).1, other.drop (size buffer)) := by
  rcases decode_cases buffer with hd | ⟨e, -, he, hd⟩ | ⟨hheader, hsize, hd⟩
  · rw [hd] at h
    exact absurd h Bool.noConfusion
  · rw [hd, takesFrame_of_headerError he] at h
    exact absurd h Bool.noConfusion
  · refine ⟨hsize, by rw [hd], fun other hother => ?_⟩
    have happ := decode_take_size_append hheader hsize (other.drop (size buffer))
    rwa [← hother, List.take_append_drop] at happ

theorem decode_of_more (h : (decode buffer).1 = .more) : decode buffer = (.more, buffer) :=
  Prod.ext h (decode_of_not_takesFrame (by rw [h]; rfl))

/-! ### All frames of a buffer -/

theorem drain_of_more (h : (decode buffer).1 = .more) : drain buffer = ⟨[], none, buffer⟩ := by
  rw [drain]
  split <;> rename_i hd <;> rw [decode_of_more h] at hd
  · cases hd
  · cases hd
    rfl
  · cases hd

theorem drain_of_error {e : Error} {rest : List UInt8} (h : decode buffer = (.error e, rest)) :
    drain buffer = ⟨[], some e, rest⟩ := by
  rw [drain]
  split <;> rename_i he <;> rw [h] at he
  · exact absurd he (by simp)
  · exact absurd he (by simp)
  · cases he
    rfl

/-- Where nothing is wrong, all frames have been taken off that are there. -/
theorem decode_rest_drain (h : (drain buffer).error = none) :
    (decode (drain buffer).rest).1 = .more := by
  induction buffer using drain.induct with
  | case1 buffer m rest hd ih =>
    rw [drain_of_message hd] at h ⊢
    exact ih h
  | case2 buffer rest hd =>
    have hmore : (decode buffer).1 = .more := by rw [hd]
    rw [drain_of_more hmore]
    exact hmore
  | case3 buffer e rest hd =>
    rw [drain_of_error hd] at h
    exact absurd h nofun

/-- What comes behind a frame that is wrong is left. -/
theorem drain_append_of_error {e : Error} (h : (drain buffer).error = some e)
    (more : List UInt8) :
    drain (buffer ++ more) = { drain buffer with rest := (drain buffer).rest ++ more } := by
  induction buffer using drain.induct with
  | case1 buffer m rest hd ih =>
    have happ := decode_append (by rw [hd]; exact nofun) more
    rw [hd] at happ
    rw [drain_of_message hd] at h ⊢
    rw [drain_of_message happ, ih h]
  | case2 buffer rest hd =>
    rw [drain_of_more (by rw [hd])] at h
    exact absurd h nofun
  | case3 buffer e' rest hd =>
    have happ := decode_append (by rw [hd]; exact nofun) more
    rw [hd] at happ
    rw [drain_of_error hd, drain_of_error happ]

/-- What comes behind frames that are right is added to what they leave. -/
theorem drain_append (h : (drain buffer).error = none) (more : List UInt8) :
    drain (buffer ++ more) =
      let d := drain ((drain buffer).rest ++ more)
      { d with messages := (drain buffer).messages ++ d.messages } := by
  induction buffer using drain.induct with
  | case1 buffer m rest hd ih =>
    have happ := decode_append (by rw [hd]; exact nofun) more
    rw [hd] at happ
    rw [drain_of_message hd] at h ⊢
    rw [drain_of_message happ, ih h]
    rfl
  | case2 buffer rest hd =>
    have hnone : drain buffer = ⟨[], none, buffer⟩ := drain_of_more (by rw [hd])
    rw [hnone]
    rfl
  | case3 buffer e rest hd =>
    rw [drain_of_error hd] at h
    exact absurd h nofun

/-! ### Chunks -/

/-- **Chunks are read like one text.** What comes behind a wrong frame is not looked at. -/
theorem drain_append_flatten (h : (decode buffer).1 = .more) (chunks : List (List UInt8)) :
    ∃ unread,
      drain (buffer ++ chunks.flatten) =
        { drainChunks buffer chunks with rest := (drainChunks buffer chunks).rest ++ unread } ∧
      ((drainChunks buffer chunks).error = none → unread = []) := by
  induction chunks generalizing buffer with
  | nil =>
    refine ⟨[], ?_, fun _ => rfl⟩
    rw [List.flatten_nil, List.append_nil, drain_of_more h, drainChunks, List.append_nil]
  | cons chunk chunks ih =>
    rw [List.flatten_cons, ← List.append_assoc, drainChunks]
    cases he : (drain (buffer ++ chunk)).error with
    | some e =>
      refine ⟨chunks.flatten, ?_, fun hn => absurd (he.symm.trans hn) nofun⟩
      exact drain_append_of_error he _
    | none =>
      obtain ⟨unread, hd, hn⟩ := ih (decode_rest_drain he)
      refine ⟨unread, ?_, hn⟩
      rw [drain_append he, hd]

/-- **What a stream decodes to does not depend on how it is cut.** The messages and the first error
are the same for any two ways to cut it, and so is what is left if nothing is wrong.

A buffer without a whole frame is left alone, and so is one with a wrong header. Otherwise exactly
the bytes of the first frame are taken off, and no other byte matters. -/
theorem drainChunks_congr {as bs : List (List UInt8)} (h : as.flatten = bs.flatten) :
    ((drainChunks [] as).messages = (drainChunks [] bs).messages ∧
      (drainChunks [] as).error = (drainChunks [] bs).error ∧
      ((drainChunks [] as).error = none →
        (drainChunks [] as).rest = (drainChunks [] bs).rest)) ∧
    ∀ buffer : List UInt8,
      ((decode buffer).1.takesFrame = false → (decode buffer).2 = buffer) ∧
      ((decode buffer).1.takesFrame = true →
        size buffer ≤ buffer.length ∧ (decode buffer).2 = buffer.drop (size buffer) ∧
        ∀ other, other.take (size buffer) = buffer.take (size buffer) →
          decode other = ((decode buffer).1, other.drop (size buffer))) ∧
      ((decode buffer).1 ≠ .more → ∀ more,
        decode (buffer ++ more) = ((decode buffer).1, (decode buffer).2 ++ more)) := by
  refine ⟨?_, fun buffer => ⟨decode_of_not_takesFrame, decode_of_takesFrame, decode_append⟩⟩
  have hempty : (decode []).1 = .more := rfl
  obtain ⟨unreadA, ha, hna⟩ := drain_append_flatten hempty as
  obtain ⟨unreadB, hb, hnb⟩ := drain_append_flatten hempty bs
  rw [h, hb] at ha
  obtain ⟨hmessages, herror, hrest⟩ := Drained.mk.inj ha
  refine ⟨hmessages.symm, herror.symm, fun hn => ?_⟩
  rw [hna hn, hnb (herror.trans hn), List.append_nil, List.append_nil] at hrest
  exact hrest.symm

/-- A frame that is cut inside its header, and two bytes of the next one. -/
theorem drainChunks_congr_header :
    [(frame (.notification ⟨"ping", none⟩)).take 3,
        (frame (.notification ⟨"ping", none⟩)).drop 3 ++ [1, 1]].flatten =
      [frame (.notification ⟨"ping", none⟩) ++ [1, 1]].flatten ∧
    (drainChunks [] [(frame (.notification ⟨"ping", none⟩)).take 3,
      (frame (.notification ⟨"ping", none⟩)).drop 3 ++ [1, 1]]).messages =
        [.notification ⟨"ping", none⟩] ∧
    (drainChunks [] [(frame (.notification ⟨"ping", none⟩)).take 3,
      (frame (.notification ⟨"ping", none⟩)).drop 3 ++ [1, 1]]).rest = [1, 1] := by
  let ping : Message := .notification ⟨"ping", none⟩
  have hping : ping.Portable := Message.portable_notification "ping"
  have hfits : fits ping = true := by decide +kernel
  have hcut : [(frame ping).take 3, (frame ping).drop 3 ++ [1, 1]].flatten =
      [frame ping ++ [1, 1]].flatten := by
    rw [List.flatten_cons, List.flatten_cons, List.flatten_cons, ← List.append_assoc,
      ← List.append_assoc, List.take_append_drop]
  have hdrain : drain (frame ping ++ [1, 1]) = ⟨[ping], none, [1, 1]⟩ := by
    rw [drain_of_message (decode_frame hping hfits [1, 1]), drain_of_more rfl]
    rfl
  have hwhole : drainChunks [] [frame ping ++ [1, 1]] = ⟨[ping], none, [1, 1]⟩ := by
    rw [drainChunks, List.nil_append, hdrain]
    rfl
  obtain ⟨hmessages, herror, hrest⟩ := (drainChunks_congr hcut).1
  rw [hwhole] at hmessages herror hrest
  exact ⟨hcut, hmessages, hrest herror⟩

end Frame
end Switchboard
