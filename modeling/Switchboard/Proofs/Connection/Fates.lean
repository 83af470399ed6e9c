import Mathlib.Data.List.Nodup
import Switchboard.Proofs.Connection.Serving

/-!
# What becomes of the requests on a connection

Whatever the peer sends, also under identifiers that are in use, and in whatever order handlers come
to their outcomes and signals fire: what becomes of a request is one of four things (`Fate`). It was
answered at once, it is being worked on, its work was dropped because its signal fired, or its work
has ended and the outcome was sent.

`Sound` is the invariant. It keeps handles apart and not identifiers: a registration is always that
of running work, but running work may have lost its registration to a newer request. `Step.sound`
says that every event keeps it.
-/

namespace Switchboard

theorem Session.handed_hand (s : Session) (m : Message) : (s.hand m).handed = s.handed ++ [m] := by
  rw [hand_eq, handed, handed, List.filterMap_append]
  simp only [List.filterMap_cons, List.filterMap_nil, Link.handed?_carry]

/-- A writer that goes on leaves the session alone, or has it refuse what it sends from then on. -/
theorem Connection.session_write (c : Connection) :
    c.write.session = c.session ∨ c.write.session = c.session.refuse Writer.goneText := by
  simp only [write, Writer.serve]
  split
  · exact .inr rfl
  · exact .inl rfl

namespace Serving

variable {st st' : Serving} {a : Arrival} {h : Handle} {w : Work} {n : Nat} {rs : List Response}

/-- **What becomes of a request**, with the responses to it. -/
inductive Fate (st : Serving) : Arrival → List Response → Prop
  | answered (r : Request) (o : Outcome) : Fate st (.answered r o) [⟨r.id, o⟩]
  | running {w : Work} (running : w ∈ st.server.running) : Fate st (.begun w) []
  | dropped {w : Work} (gone : w ∉ st.server.running) (fired : st.IsFired w.handle) :
      Fate st (.begun w) []
  | ended {w : Work} {o : Outcome} (gone : w ∉ st.server.running)
      (outcome : (w.handle, o) ∈ st.outcomes) : Fate st (.begun w) [⟨w.request.id, o⟩]

/-- **What holds of a connection that serves requests.** -/
structure Sound (st : Serving) : Prop where
  /-- A server issues no calls. -/
  idle : st.server.session.pending = .empty
  handed : st.server.session.handed = st.answers.map fun a => .response a.response
  places : ∀ a ∈ st.answers, a.place < st.arrivals.length
  allocated : ∀ w, .begun w ∈ st.arrivals → w.handle.index < st.inbound.signals.all.length
  distinct : ∀ (n n' : Nat) (v w : Work), st.arrivals[n]? = some (.begun v) →
    st.arrivals[n']? = some (.begun w) → v.handle = w.handle → n = n'
  running : ∀ w ∈ st.server.running, .begun w ∈ st.arrivals
  nodup : st.server.running.Nodup
  /-- What is registered is running work. -/
  registered : ∀ id h, st.inbound.table.get? id = some h →
    ∃ w ∈ st.server.running, w.handle = h ∧ w.request.id = id
  outcomes : ∀ h o o', (h, o) ∈ st.outcomes → (h, o') ∈ st.outcomes → o = o'
  fates : ∀ (n : Nat) (a : Arrival), st.arrivals[n]? = some a → st.Fate a (st.answersTo n)

/-! ### Responses to one request -/

theorem answersTo_append (h : st'.answers = st.answers ++ rs.map (Answer.mk n)) (k : Nat) :
    st'.answersTo k = st.answersTo k ++ if n = k then rs else [] := by
  rw [answersTo, answersTo, h, List.filter_append, List.map_append]
  by_cases hn : n = k <;> simp [hn, List.filter_map, Function.comp_def]

theorem answersTo_concat {r : Response} (h : st'.answers = st.answers ++ [⟨n, r⟩]) (k : Nat) :
    st'.answersTo k = st.answersTo k ++ if n = k then [r] else [] :=
  answersTo_append h k

theorem answersTo_eq_nil (h : ∀ answer ∈ st.answers, answer.place ≠ n) : st.answersTo n = [] := by
  rw [answersTo, List.map_eq_nil_iff, List.filter_eq_nil_iff]
  intro answer hanswer
  simp only [decide_eq_true_eq]
  exact h answer hanswer

/-- The fate of a request stays what it is while its work goes on or not as before. -/
theorem Fate.mono (hf : st.Fate a rs)
    (hrunning : ∀ w, a = .begun w → (w ∈ st'.server.running ↔ w ∈ st.server.running))
    (hfired : ∀ w, a = .begun w → st.IsFired w.handle → st'.IsFired w.handle)
    (houtcomes : st.outcomes ⊆ st'.outcomes) : st'.Fate a rs := by
  cases hf with
  | answered r o => exact .answered r o
  | @running w hr => exact .running ((hrunning w rfl).2 hr)
  | @dropped w hg hf => exact .dropped (fun hr => hg ((hrunning w rfl).1 hr)) (hfired w rfl hf)
  | @ended w o hg ho => exact .ended (fun hr => hg ((hrunning w rfl).1 hr)) (houtcomes ho)

/-- There is no response yet while the work goes on. -/
theorem Fate.eq_nil (hf : st.Fate (.begun w) rs) (hw : w ∈ st.server.running) : rs = [] := by
  cases hf with
  | running | dropped => rfl
  | ended gone => exact absurd hw gone

/-! ### A message arrives -/

/-- What becomes of a connection by a message: only its registry changes, or work begins, or a
request is answered at once. -/
theorem receive_cases (hp : st.server.session.pending = .empty) (now : Timestamp) (m : Message) :
    (m.request? = none ∧
      st.receive now m = { st with server.session.inbound := st.inbound.hear m }) ∨
    (∃ r, m = .request r ∧ (st.server.tasks.bind fun store => store.answer? now r) = none ∧
      st.receive now m =
        { st with
          server.session.inbound := st.inbound.fresh.2.register r.id st.inbound.fresh.1
          server.running := st.server.running ++ [⟨r, st.inbound.fresh.1⟩]
          arrivals := st.arrivals ++ [.begun ⟨r, st.inbound.fresh.1⟩] }) ∨
    ∃ r outcome store, m = .request r ∧
      (st.server.tasks.bind fun store => store.answer? now r) = some (outcome, store) ∧
      st.receive now m =
        { st with
          server.tasks := some store
          server.session := st.server.session.hand (.response ⟨r.id, outcome⟩)
          arrivals := st.arrivals ++ [.answered r outcome]
          answers := st.answers ++ [⟨st.arrivals.length, r.id, outcome⟩] } := by
  cases hm : m.request? with
  | none =>
    left
    refine ⟨rfl, ?_⟩
    have hatOnce : st.server.atOnce now m = [] := by
      cases m with
      | request r => cases hm
      | notification n | response r => rfl
    rw [receive, Connection.receive_of_not_request hm, Session.handle_of_idle hp, hm, hatOnce]
    simp only [Option.map_none, Option.toList_none, List.append_nil, List.map_nil]
    rfl
  | some r =>
    right
    obtain rfl := Message.eq_request hm
    cases ha : st.server.tasks.bind fun store => store.answer? now r with
    | none =>
      left
      refine ⟨r, rfl, ha, ?_⟩
      rw [receive, Connection.receive_of_work ha]
      simp only [Connection.arrival, Connection.atOnce, ha, hm, Option.map_some, Option.map_none,
        Option.toList_some, Option.toList_none, List.map_nil, List.append_nil]
      rfl
    | some answer =>
      right
      refine ⟨r, answer.1, answer.2, rfl, ha, ?_⟩
      rw [receive, Connection.receive_of_answer ha]
      simp only [Connection.arrival, Connection.atOnce, ha, hm, Option.map_some,
        Option.toList_some, List.map_cons, List.map_nil]

theorem sound_start (config : SessionConfig) (tasks : Option TaskStore) :
    Sound (start config tasks) := by
  constructor
  case idle => rfl
  case handed => rfl
  case registered =>
    intro id h hget
    exact absurd hget (by simp [inbound, start])
  case fates =>
    intro n a ha
    exact absurd ha (by simp [start])
  all_goals simp [start]

/-- A connection that differs only where no record of requests is kept. -/
theorem Sound.congr (hs : st.Sound) {server : Connection}
    (hpending : server.session.pending = st.server.session.pending)
    (hlog : server.session.log = st.server.session.log)
    (hinbound : server.session.inbound = st.inbound)
    (hrunning : server.running = st.server.running) : Sound { st with server } := by
  obtain ⟨idle, handed, places, allocated, distinct, running, nodup, registered, outcomes,
    fates⟩ := hs
  constructor
  case idle => exact hpending.trans idle
  case handed => rw [Session.handed, hlog]; exact handed
  case places => exact places
  case allocated => rw [inbound, hinbound]; exact allocated
  case distinct => exact distinct
  case running => rw [hrunning]; exact running
  case nodup => rw [hrunning]; exact nodup
  case registered => rw [inbound, hinbound, hrunning]; exact registered
  case outcomes => exact outcomes
  case fates =>
    intro n a ha
    refine (fates n a ha).mono ?_ ?_ (List.Subset.refl _)
    · intro h _
      rw [hrunning]
    · intro h _ hf
      rw [IsFired, inbound, hinbound]
      exact hf

/-- Signals fire, and registrations go. -/
theorem Sound.of_inbound (hs : st.Sound) {inbound : Registry}
    (hlength : inbound.signals.all.length = st.inbound.signals.all.length)
    (hfired : ∀ h, st.IsFired h → (inbound.signal h).isFired = true)
    (htable : ∀ id h, inbound.table.get? id = some h → st.inbound.table.get? id = some h) :
    Sound { st with server.session.inbound := inbound } :=
  { hs with
    allocated := fun w hw => hlength.symm ▸ hs.allocated w hw
    registered := fun id h hget => hs.registered id h (htable id h hget)
    fates := fun n a ha =>
      (hs.fates n a ha).mono (fun _ _ => Iff.rfl) (fun w _ => hfired w.handle)
        (List.Subset.refl _) }

theorem getElem?_concat_eq_some {α : Type} {l : List α} {x y : α} (h : (l ++ [x])[n]? = some y) :
    l[n]? = some y ∨ n = l.length ∧ x = y := by
  rcases Nat.lt_trichotomy n l.length with hlt | heq | hgt
  · rw [List.getElem?_append_left hlt] at h
    exact .inl h
  · rw [heq, List.getElem?_concat_length] at h
    exact .inr ⟨heq, Option.some.inj h⟩
  · rw [List.getElem?_eq_none (by simp; omega)] at h
    cases h

/-- Work begins on a request. -/
theorem Sound.begin (hs : st.Sound) (r : Request) :
    Sound
      { st with
        server.session.inbound := st.inbound.fresh.2.register r.id st.inbound.fresh.1
        server.running := st.server.running ++ [⟨r, st.inbound.fresh.1⟩]
        arrivals := st.arrivals ++ [.begun ⟨r, st.inbound.fresh.1⟩] } := by
  have hlength : (st.inbound.fresh.2.register r.id st.inbound.fresh.1).signals.all.length =
      st.inbound.signals.all.length + 1 := by
    simp [Registry.register, Registry.fresh, Signals.fresh]
  have hfresh : ∀ w, .begun w ∈ st.arrivals → w.handle ≠ st.inbound.fresh.1 := by
    intro w hw he
    have hlt := hs.allocated w hw
    rw [he] at hlt
    exact Nat.lt_irrefl _ hlt
  constructor
  case idle => exact hs.idle
  case handed => exact hs.handed
  case outcomes => exact hs.outcomes
  case places =>
    intro answer hanswer
    rw [List.length_append]
    exact Nat.lt_add_right _ (hs.places answer hanswer)
  case allocated =>
    intro w hw
    refine Nat.lt_of_lt_of_eq ?_ hlength.symm
    rcases List.mem_append.1 hw with hw | hw
    · exact Nat.lt_succ_of_lt (hs.allocated w hw)
    · cases List.mem_singleton.1 hw
      exact Nat.lt_succ_self _
  case distinct =>
    intro n n' v w hv hw he
    rcases getElem?_concat_eq_some hv with hv | ⟨hn, hv⟩ <;>
      rcases getElem?_concat_eq_some hw with hw | ⟨hn', hw⟩
    · exact hs.distinct n n' v w hv hw he
    · cases hw
      exact absurd he (hfresh v (List.mem_of_getElem? hv))
    · cases hv
      exact absurd he.symm (hfresh w (List.mem_of_getElem? hw))
    · rw [hn, hn']
  case running =>
    intro w hw
    rcases List.mem_append.1 hw with hw | hw
    · exact List.mem_append_left _ (hs.running w hw)
    · rw [List.mem_singleton.1 hw]
      exact List.mem_append_right _ List.mem_cons_self
  case nodup =>
    refine List.Nodup.append hs.nodup (List.nodup_singleton _) ?_
    intro w hw hw'
    rw [List.mem_singleton.1 hw'] at hw
    exact hfresh _ (hs.running _ hw) rfl
  case registered =>
    intro id h hget
    rw [inbound, Registry.register, Table.get?_insert] at hget
    split at hget
    · rename_i hid
      refine ⟨⟨r, st.inbound.fresh.1⟩, List.mem_append_right _ List.mem_cons_self, ?_, hid.symm⟩
      exact Option.some.inj hget
    · obtain ⟨w, hw, hh, hid⟩ := hs.registered id h hget
      exact ⟨w, List.mem_append_left _ hw, hh, hid⟩
  case fates =>
    intro n a ha
    rcases getElem?_concat_eq_some ha with ha | ⟨rfl, rfl⟩
    · refine (hs.fates n a ha).mono ?_ ?_ (List.Subset.refl _)
      · rintro w rfl
        have hne : w ≠ ⟨r, st.inbound.fresh.1⟩ := by
          intro he
          exact hfresh w (List.mem_of_getElem? ha) (congrArg Work.handle he)
        simp only [List.mem_append, List.mem_singleton, hne, or_false]
      · intro w _ hf
        exact (congrArg Signal.isFired (Signals.get_fresh _ _)).trans hf
    · have hnil : st.answersTo st.arrivals.length = [] :=
        answersTo_eq_nil fun answer hanswer => Nat.ne_of_lt (hs.places answer hanswer)
      show Fate _ _ (st.answersTo st.arrivals.length)
      rw [hnil]
      exact .running (List.mem_append_right _ List.mem_cons_self)

/-- A request is answered at once. -/
theorem Sound.answer (hs : st.Sound) (r : Request) (outcome : Outcome) (store : TaskStore) :
    Sound
      { st with
        server.tasks := some store
        server.session := st.server.session.hand (.response ⟨r.id, outcome⟩)
        arrivals := st.arrivals ++ [.answered r outcome]
        answers := st.answers ++ [⟨st.arrivals.length, r.id, outcome⟩] } := by
  have hold : ∀ {w}, .begun w ∈ st.arrivals ++ [.answered r outcome] → .begun w ∈ st.arrivals := by
    intro w hw
    rcases List.mem_append.1 hw with hw | hw
    · exact hw
    · cases List.mem_singleton.1 hw
  have hold? : ∀ {n : Nat} {w : Work},
      (st.arrivals ++ [.answered r outcome])[n]? = some (.begun w) →
        st.arrivals[n]? = some (.begun w) := by
    intro n w hw
    rcases getElem?_concat_eq_some hw with hw | ⟨-, hw⟩
    · exact hw
    · cases hw
  have hinbound : (st.server.session.hand (.response ⟨r.id, outcome⟩)).inbound = st.inbound := by
    rw [Session.hand_eq]
    rfl
  constructor
  case idle =>
    rw [Session.hand_eq]
    exact hs.idle
  case handed =>
    rw [Session.handed_hand, hs.handed, List.map_append]
    rfl
  case places =>
    intro answer hanswer
    rw [List.length_append]
    rcases List.mem_append.1 hanswer with hanswer | hanswer
    · exact Nat.lt_add_right _ (hs.places answer hanswer)
    · rw [List.mem_singleton.1 hanswer]
      exact Nat.lt_succ_self _
  case allocated =>
    intro w hw
    rw [inbound, hinbound]
    exact hs.allocated w (hold hw)
  case distinct =>
    intro n n' v w hv hw he
    exact hs.distinct n n' v w (hold? hv) (hold? hw) he
  case running =>
    intro w hw
    exact List.mem_append_left _ (hs.running w hw)
  case nodup => exact hs.nodup
  case registered =>
    rw [inbound, hinbound]
    exact hs.registered
  case outcomes => exact hs.outcomes
  case fates =>
    intro n a ha
    rw [answersTo_concat rfl]
    rcases getElem?_concat_eq_some ha with ha | ⟨rfl, rfl⟩
    · have hn : st.arrivals.length ≠ n := Nat.ne_of_gt (List.getElem?_eq_some_iff.1 ha).1
      rw [if_neg hn, List.append_nil]
      refine (hs.fates n a ha).mono (fun _ _ => Iff.rfl) ?_ (List.Subset.refl _)
      intro w _ hf
      rw [IsFired, inbound, hinbound]
      exact hf
    · have hnil : st.answersTo st.arrivals.length = [] :=
        answersTo_eq_nil fun answer hanswer => Nat.ne_of_lt (hs.places answer hanswer)
      rw [if_pos rfl, hnil]
      exact .answered r outcome

/-! ### Work ends -/

/-- The handler of running work comes to its first outcome. -/
theorem Sound.ready (hs : st.Sound) {outcome : Outcome}
    (first : ∀ o, (w.handle, o) ∉ st.outcomes) :
    Sound { st with outcomes := st.outcomes ++ [(w.handle, outcome)] } :=
  { hs with
    outcomes := by
      intro h o o' ho ho'
      simp only [List.mem_append, List.mem_singleton, Prod.mk.injEq] at ho ho'
      rcases ho with ho | ⟨rfl, rfl⟩ <;> rcases ho' with ho' | ⟨he, rfl⟩
      · exact hs.outcomes h o o' ho ho'
      · exact absurd (he ▸ ho) (first o)
      · exact absurd ho' (first o')
      · rfl
    fates := fun n a ha =>
      (hs.fates n a ha).mono (fun _ _ => Iff.rfl) (fun _ _ hf => hf)
        (List.subset_append_left _ _) }

/-- Running work is known by its handle. -/
theorem Sound.eq_of_handle (hs : st.Sound) {v w : Work} (hv : .begun v ∈ st.arrivals)
    (hw : .begun w ∈ st.arrivals) (he : v.handle = w.handle) : v = w := by
  obtain ⟨n, hn⟩ := List.mem_iff_getElem?.1 hv
  obtain ⟨n', hn'⟩ := List.mem_iff_getElem?.1 hw
  obtain rfl := hs.distinct n n' v w hn hn' he
  rw [hn] at hn'
  cases hn'
  rfl

/-- Work that has ended does not run any more, and other work runs on. -/
theorem Sound.mem_retire (hs : st.Sound) (hw : w ∈ st.server.running) {v : Work} :
    v ∈ (st.server.running.filter fun v => v.handle ≠ w.handle) ↔
      v ∈ st.server.running ∧ v ≠ w := by
  rw [List.mem_filter, decide_eq_true_eq]
  refine and_congr_right fun hv => not_congr ⟨fun he => ?_, congrArg Work.handle⟩
  exact hs.eq_of_handle (hs.running v hv) (hs.running w hw) he

theorem Sound.not_mem_retire (hs : st.Sound) (hw : w ∈ st.server.running) :
    w ∉ st.server.running.filter fun v => v.handle ≠ w.handle := fun hw' =>
  ((hs.mem_retire hw).1 hw').2 rfl

theorem inbound_finish (st : Serving) (n : Nat) (w : Work) (o : Outcome) :
    (st.finish n w o).inbound = (st.inbound.release w.request.id w.handle).2 := by
  rw [inbound, finish, Connection.complete, Session.hand_eq]
  rfl

/-- **Work ends**, with a response or none, and only its own registration goes. -/
theorem Sound.retire (hs : st.Sound) (hw : w ∈ st.server.running)
    (place : st.arrivals[n]? = some (.begun w))
    (hrunning : st'.server.running = st.server.running.filter fun v => v.handle ≠ w.handle)
    (hinbound : st'.inbound = (st.inbound.release w.request.id w.handle).2)
    (hpending : st'.server.session.pending = .empty)
    (harrivals : st'.arrivals = st.arrivals) (houtcomes : st'.outcomes = st.outcomes)
    (hanswers : st'.answers = st.answers ++ rs.map (Answer.mk n))
    (hhanded : st'.server.session.handed = st.server.session.handed ++ rs.map .response)
    (hfate : st'.Fate (.begun w) rs) : st'.Sound := by
  have hsignals : st'.inbound.signals = st.inbound.signals := by
    rw [hinbound, Registry.signals_release]
  have hmem : ∀ {v}, v ∈ st'.server.running ↔ v ∈ st.server.running ∧ v ≠ w := by
    intro v
    rw [hrunning]
    exact hs.mem_retire hw
  constructor
  case idle => exact hpending
  case handed =>
    rw [hhanded, hanswers, hs.handed, List.map_append, List.map_map]
    rfl
  case places =>
    intro answer hanswer
    rw [harrivals]
    rw [hanswers] at hanswer
    rcases List.mem_append.1 hanswer with hanswer | hanswer
    · exact hs.places answer hanswer
    · obtain ⟨r, -, rfl⟩ := List.mem_map.1 hanswer
      exact (List.getElem?_eq_some_iff.1 place).1
  case allocated =>
    rw [harrivals, hsignals]
    exact hs.allocated
  case distinct =>
    rw [harrivals]
    exact hs.distinct
  case running =>
    intro v hv
    rw [harrivals]
    exact hs.running v (hmem.1 hv).1
  case nodup =>
    rw [hrunning]
    exact hs.nodup.filter _
  case registered =>
    intro id h hget
    rw [hinbound, Registry.get?_release] at hget
    split at hget
    · cases hget
    · rename_i hnot
      obtain ⟨v, hv, hh, hid⟩ := hs.registered id h hget
      refine ⟨v, hmem.2 ⟨hv, ?_⟩, hh, hid⟩
      rintro rfl
      subst hh hid
      exact hnot ⟨rfl, hget⟩
  case outcomes =>
    rw [houtcomes]
    exact hs.outcomes
  case fates =>
    intro k a ha
    rw [harrivals] at ha
    rw [answersTo_append hanswers]
    by_cases hk : n = k
    · subst hk
      rw [place] at ha
      cases ha
      rw [(hs.fates n _ place).eq_nil hw, if_pos rfl, List.nil_append]
      exact hfate
    · rw [if_neg hk, List.append_nil]
      refine (hs.fates k a ha).mono ?_ ?_ (houtcomes ▸ List.Subset.refl _)
      · rintro v rfl
        rw [hmem]
        refine and_iff_left fun he => hk ?_
        exact hs.distinct n k w v place ha (congrArg Work.handle he.symm)
      · intro v _ hf
        rw [IsFired, Registry.signal, hsignals]
        exact hf

/-! ### One event -/

/-- The request that work is for has a place. -/
theorem Sound.exists_place (hs : st.Sound) (hw : w ∈ st.server.running) :
    ∃ n : Nat, st.arrivals[n]? = some (.begun w) :=
  List.mem_iff_getElem?.1 (hs.running w hw)

/-- **Every event keeps the connection as it should be.** -/
theorem Step.sound {act : Act} (step : Step st act st') (hs : st.Sound) : st'.Sound := by
  cases step with
  | receive now m =>
    obtain ⟨-, he⟩ | ⟨r, -, -, he⟩ | ⟨r, outcome, store, -, -, he⟩ :=
      receive_cases hs.idle now m <;> rw [he]
    · refine hs.of_inbound (st.inbound.length_signals_hear m) ?_ ?_
      · intro h hf
        exact Registry.isFired_hear hf m
      · intro id h hget
        exact Registry.get?_of_hear hget
    · exact hs.begin r
    · exact hs.answer r outcome store
  | ready outcome running first => exact hs.ready first
  | @finish w n outcome running place ready =>
    have hfate : (st.finish n w outcome).Fate (.begun w) [⟨w.request.id, outcome⟩] :=
      .ended (hs.not_mem_retire running) ready
    refine hs.retire running place rfl (st.inbound_finish n w outcome) ?_ rfl rfl rfl ?_ hfate
    · rw [Serving.finish, Connection.complete, Session.hand_eq]
      exact hs.idle
    · rw [Serving.finish, Connection.complete, Session.handed_hand]
      rfl
  | @drop w running fired =>
    obtain ⟨n, place⟩ := hs.exists_place running
    have hsignals : (st.server.abandon w).session.inbound.signals = st.inbound.signals :=
      st.inbound.signals_release w.request.id w.handle
    have hfate : Fate { st with server := st.server.abandon w } (.begun w) [] := by
      refine .dropped (hs.not_mem_retire running) ?_
      rw [IsFired, Registry.signal, inbound, hsignals]
      exact fired
    refine hs.retire running place rfl rfl hs.idle rfl rfl ?_ ?_ hfate
    · exact (List.append_nil _).symm
    · exact (List.append_nil _).symm
  | idle running quiet busy => exact hs
  | fire h reason =>
    refine hs.of_inbound ?_ ?_ ?_
    · exact Signals.length_fire _ _ _
    · intro h' hf
      exact Signals.isFired_fire _ _ _ _ hf
    · intro id h' hget
      exact hget
  | retask change => exact hs.congr rfl rfl rfl rfl
  | relink link upcoming => exact hs.congr rfl rfl rfl rfl
  | write =>
    have hrunning : st.server.write.running = st.server.running := by
      rw [Connection.write]
    rcases st.server.session_write with he | he
    · exact hs.congr (by rw [he]) (by rw [he]) (by rw [he]; rfl) hrunning
    · exact hs.congr (by rw [he]; rfl) (by rw [he]; rfl) (by rw [he]; rfl) hrunning

theorem Run.sound_of {acts : List Act} (run : Run st acts st') (hs : st.Sound) : st'.Sound := by
  induction run with
  | start => exact hs
  | step run step ih => exact step.sound ih

theorem Run.sound {config : SessionConfig} {tasks : Option TaskStore} {acts : List Act}
    (run : Run (.start config tasks) acts st) : st.Sound :=
  run.sound_of (sound_start config tasks)

end Serving
end Switchboard
