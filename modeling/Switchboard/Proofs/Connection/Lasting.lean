import Mathlib.Data.List.Infix
import Switchboard.Proofs.Connection.Fates

/-!
# What lasts on a connection

Requests that have arrived stay in their places, signals that have fired stay fired, and work that
has ended neither begins again nor says anything more: no event takes any of this back
(`Step.grows`), and so no run does (`Run.grows`).

Letting all work go on, as `Connection.poll` does, is such a run (`Sound.exists_run_poll`).
-/

namespace Switchboard
namespace Serving

variable {st st' : Serving} {w : Work} {n : Nat}

/-- **What stays as it is** from one state of a connection to a later one. -/
structure Grows (st st' : Serving) : Prop where
  arrivals : st.arrivals <+: st'.arrivals
  fired : ∀ h, st.IsFired h → st'.IsFired h
  /-- Work that does not run any more does not begin again. -/
  running : ∀ w, .begun w ∈ st.arrivals → w ∈ st'.server.running → w ∈ st.server.running
  /-- Nothing more is said to a request that nobody works on. -/
  answers : ∀ (n : Nat) (w : Work), st.arrivals[n]? = some (.begun w) → w ∉ st.server.running →
    st'.answersTo n = st.answersTo n

theorem Grows.refl (st : Serving) : Grows st st :=
  ⟨List.prefix_refl _, fun _ hf => hf, fun _ _ hw => hw, fun _ _ _ _ => rfl⟩

theorem getElem?_of_isPrefix {α : Type} {as bs : List α} {x : α} (hp : as <+: bs)
    (h : as[n]? = some x) : bs[n]? = some x := by
  obtain ⟨hlt, rfl⟩ := List.getElem?_eq_some_iff.1 h
  exact List.prefix_iff_getElem?.1 hp n hlt

theorem Grows.trans {st'' : Serving} (h₁ : Grows st st') (h₂ : Grows st' st'') : Grows st st'' where
  arrivals := h₁.arrivals.trans h₂.arrivals
  fired h hf := h₂.fired h (h₁.fired h hf)
  running w hw hr := h₁.running w hw (h₂.running w (h₁.arrivals.subset hw) hr)
  answers n w hn hg := by
    have hg' : w ∉ st'.server.running := fun hr => hg (h₁.running w (List.mem_of_getElem? hn) hr)
    rw [h₂.answers n w (getElem?_of_isPrefix h₁.arrivals hn) hg', h₁.answers n w hn hg]

/-- An event that no request notices. -/
theorem Grows.of_eq (harrivals : st'.arrivals = st.arrivals) (hanswers : st'.answers = st.answers)
    (hrunning : st'.server.running = st.server.running)
    (hfired : ∀ h, st.IsFired h → st'.IsFired h) : Grows st st' where
  arrivals := by rw [harrivals]
  fired := hfired
  running w _ hw := by rwa [hrunning] at hw
  answers n w _ _ := by rw [answersTo, answersTo, hanswers]

/-- Work ends. -/
theorem Grows.of_retire {w : Work} (harrivals : st'.arrivals = st.arrivals)
    (hrunning : st'.server.running = st.server.running.filter fun v => v.handle ≠ w.handle)
    (hsignals : st'.inbound.signals = st.inbound.signals)
    (hanswers : ∀ n v, st.arrivals[n]? = some (.begun v) → v ≠ w →
      st'.answersTo n = st.answersTo n) (hw : w ∈ st.server.running) : Grows st st' where
  arrivals := by rw [harrivals]
  fired h hf := by rwa [IsFired, Registry.signal, hsignals]
  running v _ hv := by
    rw [hrunning] at hv
    exact (List.mem_filter.1 hv).1
  answers n v hn hg := hanswers n v hn fun he => hg (he ▸ hw)

/-- **No event takes back** what has become of a request. -/
theorem Step.grows {act : Act} (step : Step st act st') (hs : st.Sound) : Grows st st' := by
  cases step with
  | receive now m =>
    obtain ⟨-, he⟩ | ⟨r, -, -, he⟩ | ⟨r, outcome, store, -, -, he⟩ :=
      receive_cases hs.idle now m <;> rw [he]
    · refine .of_eq rfl rfl rfl fun h hf => ?_
      exact Registry.isFired_hear hf m
    · constructor
      case arrivals => exact List.prefix_append _ _
      case answers => exact fun _ _ _ _ => rfl
      case fired =>
        intro h hf
        exact (congrArg Signal.isFired (Signals.get_fresh _ _)).trans hf
      case running =>
        intro w hw hr
        refine (List.mem_append.1 hr).resolve_right fun hr => ?_
        have hlt := hs.allocated w hw
        rw [List.mem_singleton.1 hr] at hlt
        exact Nat.lt_irrefl _ hlt
    · constructor
      case arrivals => exact List.prefix_append _ _
      case running => exact fun _ _ hw => hw
      case fired =>
        intro h hf
        rw [IsFired, inbound, Session.hand_eq]
        exact hf
      case answers =>
        intro n w hn _
        have hne : st.arrivals.length ≠ n := Nat.ne_of_gt (List.getElem?_eq_some_iff.1 hn).1
        rw [answersTo_concat rfl, if_neg hne, List.append_nil]
  | ready outcome running first => exact .of_eq rfl rfl rfl fun _ hf => hf
  | @finish w n outcome running place ready =>
    refine .of_retire rfl rfl ?_ ?_ running
    · rw [inbound_finish]
      exact st.inbound.signals_release w.request.id w.handle
    · intro k v hk hne
      have hplace : n ≠ k := by
        rintro rfl
        rw [place] at hk
        cases hk
        exact hne rfl
      rw [answersTo_concat rfl, if_neg hplace, List.append_nil]
  | @drop w running fired =>
    exact .of_retire rfl rfl (st.inbound.signals_release w.request.id w.handle)
      (fun _ _ _ _ => rfl) running
  | idle running quiet busy => exact .refl st
  | fire h reason => exact .of_eq rfl rfl rfl fun _ hf => Signals.isFired_fire _ _ _ _ hf
  | retask change | relink link upcoming => exact .of_eq rfl rfl rfl fun _ hf => hf
  | write =>
    refine .of_eq rfl rfl ?_ ?_
    · rw [Connection.write]
    · intro h hf
      rcases st.server.session_write with he | he <;> rw [IsFired, inbound, he] <;> exact hf

theorem Run.grows {acts : List Act} (run : Run st acts st') (hs : st.Sound) : Grows st st' := by
  induction run with
  | start => exact .refl st
  | step run step ih => exact ih.trans (step.grows (run.sound_of hs))

/-! ### Work that goes on -/

theorem Run.append {acts acts' : List Act} {st'' : Serving} (run : Run st acts st')
    (run' : Run st' acts' st'') : Run st (acts ++ acts') st'' := by
  induction run' with
  | start => rwa [List.append_nil]
  | step _ step ih =>
    rw [← List.append_assoc]
    exact ih.step step

/-- One piece of work goes on, and other work that has no outcome yet does not notice. -/
theorem Sound.exists_run_advance (hs : st.Sound) (handler : Handler) (hw : w ∈ st.server.running)
    (busy : ∀ o, (w.handle, o) ∉ st.outcomes) :
    ∃ acts st', Run st acts st' ∧ st'.server = st.server.advance handler w ∧
      ∀ v ∈ st.server.running, v ≠ w → (∀ o, (v.handle, o) ∉ st.outcomes) →
        v ∈ st'.server.running ∧ ∀ o, (v.handle, o) ∉ st'.outcomes := by
  rw [Connection.advance]
  split
  · rename_i fired
    refine ⟨_, _, .step .start (.drop hw fired), rfl, fun v hv hne hbusy => ⟨?_, hbusy⟩⟩
    exact (hs.mem_retire hw).2 ⟨hv, hne⟩
  · cases handler w.request with
    | none => exact ⟨_, _, .start, rfl, fun v hv _ hbusy => ⟨hv, hbusy⟩⟩
    | some outcome =>
      obtain ⟨n, place⟩ := hs.exists_place hw
      refine ⟨_, _, .step (.step .start (.ready outcome hw busy))
        (.finish hw place (List.mem_append_right _ List.mem_cons_self)), rfl, ?_⟩
      intro v hv hne hbusy
      refine ⟨(hs.mem_retire hw).2 ⟨hv, hne⟩, fun o ho => ?_⟩
      rcases List.mem_append.1 ho with ho | ho
      · exact hbusy o ho
      · have he : v.handle = w.handle := congrArg Prod.fst (List.mem_singleton.1 ho)
        exact hne (hs.eq_of_handle (hs.running v hv) (hs.running w hw) he)

/-- **To let all work go on is a run.** -/
theorem Sound.exists_run_poll (hs : st.Sound) (handler : Handler)
    (busy : ∀ w ∈ st.server.running, ∀ o, (w.handle, o) ∉ st.outcomes) :
    ∃ acts st', Run st acts st' ∧ st'.server = st.server.poll handler := by
  have hall : ∀ (ws : List Work) (st : Serving), st.Sound → ws.Nodup →
      (∀ w ∈ ws, w ∈ st.server.running ∧ ∀ o, (w.handle, o) ∉ st.outcomes) →
      ∃ acts st', Run st acts st' ∧
        st'.server = ws.foldl (Connection.advance handler) st.server := by
    intro ws
    induction ws with
    | nil => exact fun st _ _ _ => ⟨[], st, .start, rfl⟩
    | cons w ws ih =>
      intro st hs hnodup hws
      obtain ⟨hne, hnodup⟩ := List.nodup_cons.1 hnodup
      obtain ⟨hw, hbusy⟩ := hws w List.mem_cons_self
      obtain ⟨acts, st₁, run, hserver, hothers⟩ := hs.exists_run_advance handler hw hbusy
      have hws₁ : ∀ v ∈ ws, v ∈ st₁.server.running ∧ ∀ o, (v.handle, o) ∉ st₁.outcomes := by
        intro v hv
        obtain ⟨hr, hb⟩ := hws v (List.mem_cons_of_mem w hv)
        exact hothers v hr (fun he => hne (he ▸ hv)) hb
      obtain ⟨acts', st₂, run', hserver'⟩ := ih st₁ (run.sound_of hs) hnodup hws₁
      refine ⟨acts ++ acts', st₂, run.append run', ?_⟩
      rw [hserver', hserver, List.foldl_cons]
  exact hall _ st hs hs.nodup fun w hw => ⟨hw, busy w hw⟩

end Serving
end Switchboard
