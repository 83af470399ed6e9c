import Switchboard.Proofs.Connection.Lasting

/-!
# A server answers each request at most once

A request whose identifier is in use takes the registration of the older one, and so a cancellation
reaches the newer one only. The older work goes on and is answered all the same, and its end leaves
the registration alone: `Step.registered` lists the ways in which a registration can go (`Loses`).

`Run.answers_at_most_once` is the main statement. It is about all runs of a connection that is not
closed; what it says of work, `Handled`, looks at everything that may happen later as well.

Two things are left to chance. Work whose signal has fired may still be answered, if its handler
comes to an outcome before the work is asked for it; and a response that is handed over is not sent
if the transport does not take messages any more. There is a run for each.
-/

namespace Switchboard

/-- The task methods. -/
def TaskMethod.names : List String :=
  ["tasks/create", "tasks/get", "tasks/list", "tasks/cancel", "tasks/result"]

theorem TaskMethod.isSome_ofName?_iff (name : String) :
    (ofName? name).isSome = true ↔ name ∈ names := by
  unfold ofName?
  split <;> simp_all [names]

/-- Whether a request names a task method, and there is a task store to answer it. -/
def Connection.IsTask (c : Connection) (r : Request) : Prop :=
  c.tasks.isSome = true ∧ r.method ∈ TaskMethod.names

namespace Serving

variable {st st' : Serving} {act : Act} {acts : List Act} {w : Work} {n : Nat} {id : RequestId}
  {h : Handle}

/-! ### Requests -/

theorem answer_eq_none_iff {c : Connection} {now : Timestamp} {r : Request} :
    (c.tasks.bind fun store => store.answer? now r) = none ↔ ¬ c.IsTask r := by
  rw [Connection.IsTask]
  cases c.tasks with
  | none => simp
  | some store => simp [TaskStore.answer?, ← TaskMethod.isSome_ofName?_iff]

/-- Task methods are answered at once, and any other request is worked on. -/
def Suits (st : Serving) : Arrival → Prop
  | .answered r _ => st.server.IsTask r
  | .begun w => ¬ st.server.IsTask w.request

theorem Suits.congr {a : Arrival} (ha : st.Suits a)
    (htasks : st'.server.tasks.isSome = st.server.tasks.isSome) : st'.Suits a := by
  cases a with
  | answered r o =>
    rw [Suits, Connection.IsTask, htasks]
    exact ha
  | begun w =>
    rw [Suits, Connection.IsTask, htasks]
    exact ha

/-- What one event adds to the requests that have arrived. -/
theorem Step.arrivals (step : Step st act st') (hs : st.Sound) :
    st'.server.tasks.isSome = st.server.tasks.isSome ∧
      ∃ more, st'.arrivals = st.arrivals ++ more ∧
        more.map Arrival.request = act.request?.toList ∧ ∀ a ∈ more, st.Suits a := by
  have hnone : ∃ more, st.arrivals = st.arrivals ++ more ∧ more.map Arrival.request = [] ∧
      ∀ a ∈ more, st.Suits a :=
    ⟨[], (List.append_nil _).symm, rfl, fun a ha => absurd ha List.not_mem_nil⟩
  cases step with
  | receive now m =>
    obtain ⟨hm, he⟩ | ⟨r, rfl, hr, he⟩ | ⟨r, outcome, store, rfl, hr, he⟩ :=
      receive_cases hs.idle now m <;> rw [he]
    · rw [Act.request?, hm]
      exact ⟨rfl, hnone⟩
    · refine ⟨rfl, _, rfl, rfl, fun a ha => ?_⟩
      rw [List.mem_singleton.1 ha]
      exact answer_eq_none_iff.1 hr
    · have htask : st.server.IsTask r := by
        by_contra hnot
        rw [answer_eq_none_iff.2 hnot] at hr
        cases hr
      refine ⟨htask.1.symm, _, rfl, rfl, fun a ha => ?_⟩
      rw [List.mem_singleton.1 ha]
      exact htask
  | retask change => exact ⟨Option.isSome_map, hnone⟩
  | finish running place ready =>
    rw [Serving.finish, Connection.complete]
    exact ⟨rfl, hnone⟩
  | ready | drop | idle | fire | relink => exact ⟨rfl, hnone⟩
  | write =>
    rw [Connection.write]
    exact ⟨rfl, hnone⟩

/-- All requests that have arrived, and how they were received. -/
theorem Run.arrivals {config : SessionConfig} {tasks : Option TaskStore}
    (run : Run (.start config tasks) acts st) :
    st.server.tasks.isSome = tasks.isSome ∧
      st.arrivals.map Arrival.request = acts.filterMap Act.request? ∧
        ∀ a ∈ st.arrivals, st.Suits a := by
  induction run with
  | start => exact ⟨rfl, rfl, fun a ha => absurd ha List.not_mem_nil⟩
  | @step acts st st' act run step ih =>
    obtain ⟨htasks, hrequests, hsuits⟩ := ih
    obtain ⟨htasks', more, harrivals, hmore, hsuits'⟩ := step.arrivals run.sound
    refine ⟨htasks'.trans htasks, ?_, fun a ha => ?_⟩
    · rw [harrivals, List.map_append, hrequests, hmore, List.filterMap_append]
      cases hact : act.request? <;> simp [hact]
    · rw [harrivals] at ha
      rcases List.mem_append.1 ha with ha | ha
      · exact (hsuits a ha).congr htasks'
      · exact (hsuits' a ha).congr htasks'

/-! ### Registrations -/

/-- **Why a registration goes.** -/
inductive Loses (st' : Serving) (id : RequestId) (h : Handle) : Act → Prop
  /-- A newer request takes its place. -/
  | replaced (now : Timestamp) {r : Request} (same : r.id = id) :
      Loses st' id h (.receive now (.request r))
  /-- The work is cancelled. -/
  | cancelled (now : Timestamp) {m : Message} {c : Cancellation} (cancel : m.cancellation? = some c)
      (same : c.id = id) (fired : st'.IsFired h) : Loses st' id h (.receive now m)
  /-- The work itself ends. -/
  | ended {w : Work} (own : w.handle = h) (gone : w ∉ st'.server.running) : Loses st' id h (.poll w)

/-- **A registration goes only if its own work is cancelled or ends**, or if a newer request takes
its place. -/
theorem Step.registered (step : Step st act st') (hs : st.Sound)
    (hget : st.inbound.table.get? id = some h) :
    st'.inbound.table.get? id = some h ∨ st'.Loses id h act := by
  have hretire : ∀ w : Work, w ∉ st'.server.running → act = .poll w →
      st'.inbound = (st.inbound.release w.request.id w.handle).2 →
      st'.inbound.table.get? id = some h ∨ st'.Loses id h act := by
    rintro w gone rfl hinbound
    rw [hinbound, Registry.get?_release]
    split
    · rename_i hown
      rw [hown.1, hown.2] at hget
      exact .inr (.ended (Option.some.inj hget) gone)
    · exact .inl hget
  cases step with
  | receive now m =>
    obtain ⟨hm, he⟩ | ⟨r, rfl, hr, he⟩ | ⟨r, outcome, store, rfl, hr, he⟩ :=
      receive_cases hs.idle now m <;> rw [he]
    · rw [inbound, Registry.hear]
      cases hc : m.cancellation? with
      | none => exact .inl hget
      | some c =>
        by_cases hid : c.id = id
        · right
          refine .cancelled now hc hid ?_
          obtain ⟨w, hw, rfl, -⟩ := hs.registered id h hget
          rw [← hid] at hget
          show ((st.inbound.cancel c.id c.reason).2.signal w.handle).isFired = true
          exact Registry.isFired_cancel_self hget (hs.allocated w (hs.running w hw)) c.reason
        · left
          show (st.inbound.cancel c.id c.reason).2.table.get? id = some h
          rw [Registry.get?_cancel, if_neg fun he => hid he.symm]
          exact hget
    · by_cases hid : r.id = id
      · exact .inr (.replaced now hid)
      · left
        rw [inbound, Registry.register, Table.get?_insert, if_neg fun he => hid he.symm]
        exact hget
    · left
      rw [inbound, Session.hand_eq]
      exact hget
  | @finish w n outcome running place ready =>
    exact hretire w (hs.not_mem_retire running) rfl (st.inbound_finish n w outcome)
  | @drop w running fired => exact hretire w (hs.not_mem_retire running) rfl rfl
  | ready | idle | fire | retask | relink => exact .inl hget
  | write =>
    left
    rcases st.server.session_write with he | he <;> rw [inbound, he] <;> exact hget

/-! ### Work -/

/-- The outcome of a handler comes from the handler. -/
theorem Run.not_ready (run : Run st acts st') (hs : st.Sound) (hw : .begun w ∈ st.arrivals)
    (busy : ∀ o, (w.handle, o) ∉ st.outcomes) (never : ∀ o, .ready w o ∉ acts) :
    ∀ o, (w.handle, o) ∉ st'.outcomes := by
  induction run with
  | start => exact busy
  | @step acts st' st'' act run step ih =>
    have hold := ih fun o ho => never o (List.mem_append_left _ ho)
    cases step with
    | @ready v outcome running first =>
      intro o ho
      rcases List.mem_append.1 ho with ho | ho
      · exact hold o ho
      · have hs' := run.sound_of hs
        have he : w.handle = v.handle := congrArg Prod.fst (List.mem_singleton.1 ho)
        have hw' := (run.grows hs).arrivals.subset hw
        obtain rfl := hs'.eq_of_handle hw' (hs'.running v running) he
        exact never outcome (List.mem_append_right _ List.mem_cons_self)
    | receive now m =>
      exact hold
    | finish | drop | idle | fire | retask | relink | write => exact hold

/-- **What becomes of work on the request at a place.** -/
structure Handled (st : Serving) (n : Nat) (w : Work) : Prop where
  /-- If its signal has not fired, it goes on, or its outcome has been handed over once. -/
  quiet : ¬ st.IsFired w.handle →
    (w ∈ st.server.running ∧ st.answersTo n = []) ∨
      (w ∉ st.server.running ∧
        ∃ o, (w.handle, o) ∈ st.outcomes ∧ st.answersTo n = [⟨w.request.id, o⟩])
  /-- If its handler has come to an outcome, this is handed over when the work is asked for it. -/
  ready : ¬ st.IsFired w.handle → w ∈ st.server.running → ∀ o, (w.handle, o) ∈ st.outcomes →
    (∃ st', Step st (.poll w) st') ∧
      ∀ st', Step st (.poll w) st' → st'.answersTo n = [⟨w.request.id, o⟩]
  /-- If its signal has fired and its handler has come to an outcome all the same, either of the two
  may be taken when the work is asked for it. -/
  raced : st.IsFired w.handle → w ∈ st.server.running → ∀ o, (w.handle, o) ∈ st.outcomes →
    (∃ st', Step st (.poll w) st' ∧ st'.answersTo n = [⟨w.request.id, o⟩]) ∧
      (∃ st', Step st (.poll w) st' ∧ st'.answersTo n = []) ∧
      ∀ st', Step st (.poll w) st' →
        st'.answersTo n = [⟨w.request.id, o⟩] ∨ st'.answersTo n = []
  /-- If its signal has fired and its handler has not come to an outcome by the time that the work
  is asked for it, nothing is handed over, then and ever after. -/
  dropped : st.IsFired w.handle → w ∈ st.server.running → (∀ o, (w.handle, o) ∉ st.outcomes) →
    ∀ before st₁, Run st before st₁ → (∀ o, .ready w o ∉ before) →
      st₁.answersTo n = [] ∧
        ∀ st₂, Step st₁ (.poll w) st₂ → ∀ after st₃, Run st₂ after st₃ → st₃.answersTo n = []
  /-- Once it has ended, nothing more is handed over. -/
  ended : w ∉ st.server.running → ∀ acts st', Run st acts st' → st'.answersTo n = st.answersTo n

/-- There is no response without an outcome. -/
theorem Fate.eq_nil_of_busy {rs : List Response} (hf : st.Fate (.begun w) rs)
    (busy : ∀ o, (w.handle, o) ∉ st.outcomes) : rs = [] := by
  cases hf with
  | running | dropped => rfl
  | ended _ outcome => exact absurd outcome (busy _)

/-- Running work that is asked for the outcome of its handler and gives it. -/
theorem Sound.answersTo_finish (hs : st.Sound) (hn : st.arrivals[n]? = some (.begun w))
    (hr : w ∈ st.server.running) {k : Nat} (place : st.arrivals[k]? = some (.begun w))
    (o : Outcome) : (st.finish k w o).answersTo n = [⟨w.request.id, o⟩] := by
  obtain rfl := hs.distinct n k w w hn place rfl
  rw [answersTo_concat rfl, (hs.fates n _ hn).eq_nil hr, if_pos rfl, List.nil_append]

theorem Sound.handled (hs : st.Sound) (hn : st.arrivals[n]? = some (.begun w)) :
    st.Handled n w := by
  constructor
  case quiet =>
    intro hquiet
    have hf := hs.fates n _ hn
    generalize st.answersTo n = rs at hf
    cases hf with
    | running hr => exact .inl ⟨hr, rfl⟩
    | dropped hg hf => exact absurd hf hquiet
    | @ended _ o hg ho => exact .inr ⟨hg, o, ho, rfl⟩
  case ready =>
    intro hquiet hr o ho
    refine ⟨⟨_, .finish hr hn ho⟩, fun st' step => ?_⟩
    cases step with
    | @finish _ k o' running place ready =>
      obtain rfl := hs.outcomes w.handle o o' ho ready
      exact hs.answersTo_finish hn hr place o
    | drop running fired => exact absurd fired hquiet
    | idle running quiet busy => exact absurd ho (busy o)
  case raced =>
    intro hfired hr o ho
    have hnil : st.answersTo n = [] := (hs.fates n _ hn).eq_nil hr
    refine ⟨⟨_, .finish hr hn ho, hs.answersTo_finish hn hr hn o⟩, ⟨_, .drop hr hfired, hnil⟩,
      fun st' step => ?_⟩
    cases step with
    | @finish _ k o' running place ready =>
      obtain rfl := hs.outcomes w.handle o o' ho ready
      exact .inl (hs.answersTo_finish hn hr place o)
    | drop running fired => exact .inr hnil
    | idle running quiet busy => exact absurd hfired quiet
  case dropped =>
    intro hfired hr busy before st₁ run never
    have hs₁ := run.sound_of hs
    have hg := run.grows hs
    have hn₁ := getElem?_of_isPrefix hg.arrivals hn
    have busy₁ := run.not_ready hs (List.mem_of_getElem? hn) busy never
    have hnil : st₁.answersTo n = [] := (hs₁.fates n _ hn₁).eq_nil_of_busy busy₁
    refine ⟨hnil, fun st₂ step after st₃ run₂ => ?_⟩
    have hg₂ := run₂.grows (step.sound hs₁)
    cases step with
    | finish running place ready => exact absurd ready (busy₁ _)
    | drop running fired =>
      exact (hg₂.answers n w hn₁ (hs₁.not_mem_retire running)).trans hnil
    | idle running quiet busy => exact absurd (hg.fired _ hfired) quiet
  case ended =>
    intro hgone acts st' run
    exact (run.grows hs).answers n w hn hgone

/-- **A server answers each request at most once, whatever the peer sends.** Everything that it
hands to its transport is a response to one request that has arrived; no request gets two, and each
gets its own identifier and outcome. What is handed over is sent, but for what the transport
refuses.

A task method is answered once, at once. It registers nothing, and so what is registered is always
running work under the identifier of its own request: none whose handler has ended. A registration
goes only by the end or the cancellation of its own work, or if a newer request takes its place.
What becomes of requests that are worked on is said by `Handled`. -/
theorem Run.answers_at_most_once {config : SessionConfig} {tasks : Option TaskStore}
    (run : Run (.start config tasks) acts st) :
    st.arrivals.map Arrival.request = acts.filterMap Act.request? ∧
    st.server.session.handed = st.answers.map (fun a => .response a.response) ∧
    st.server.session.sent.Sublist st.server.session.handed ∧
    ((∀ m reason, .refused m reason ∉ st.server.session.log) →
      st.server.session.sent = st.server.session.handed) ∧
    (∀ a ∈ st.answers, a.place < st.arrivals.length) ∧
    (∀ (n : Nat) (a : Arrival), st.arrivals[n]? = some a →
      (st.answersTo n).length ≤ 1 ∧ (∀ r ∈ st.answersTo n, r.id = a.request.id) ∧
      (tasks.isSome = true ∧ a.request.method ∈ TaskMethod.names ↔
        ∃ o, a = .answered a.request o)) ∧
    (∀ (n : Nat) (r : Request) (o : Outcome), st.arrivals[n]? = some (.answered r o) →
      st.answersTo n = [⟨r.id, o⟩]) ∧
    (∀ (n : Nat) (w : Work), st.arrivals[n]? = some (.begun w) →
      (∀ r ∈ st.answersTo n, (w.handle, r.outcome) ∈ st.outcomes ∧ w ∉ st.server.running) ∧
      st.Handled n w) ∧
    (∀ id h, st.inbound.table.get? id = some h →
      ∃ w ∈ st.server.running, w.handle = h ∧ w.request.id = id ∧ .begun w ∈ st.arrivals) ∧
    (∀ now r o, st.server.arrival now r = .answered r o →
      (st.receive now (.request r)).inbound = st.inbound) ∧
    ∀ act st', Step st act st' → ∀ id h, st.inbound.table.get? id = some h →
      st'.inbound.table.get? id = some h ∨ st'.Loses id h act := by
  have hs := run.sound
  obtain ⟨htasks, hrequests, hsuits⟩ := run.arrivals
  refine ⟨hrequests, hs.handed, Session.sent_sublist_handed _, Session.sent_eq_handed, hs.places,
    ?_, ?_, ?_, ?_, ?_, fun act st' step id h hget => step.registered hs hget⟩
  · intro n a hn
    have hf := hs.fates n a hn
    generalize st.answersTo n = rs at hf
    refine ⟨?_, ?_, ?_⟩
    · cases hf <;> simp
    · intro r hr
      cases hf with
      | running | dropped => cases hr
      | answered | ended => rw [List.mem_singleton.1 hr]; rfl
    · have ha := hsuits a (List.mem_of_getElem? hn)
      rw [← htasks]
      cases a with
      | answered r o => exact ⟨fun _ => ⟨o, rfl⟩, fun _ => ha⟩
      | begun w => exact ⟨fun htask => absurd htask ha, fun ⟨o, he⟩ => Arrival.noConfusion he⟩
  · intro n r o hn
    have hf := hs.fates n _ hn
    generalize st.answersTo n = rs at hf
    cases hf
    rfl
  · intro n w hn
    refine ⟨fun r hr => ?_, hs.handled hn⟩
    have hf := hs.fates n _ hn
    generalize st.answersTo n = rs at hf hr
    cases hf with
    | running | dropped => cases hr
    | ended gone outcome =>
      obtain rfl := List.mem_singleton.1 hr
      exact ⟨outcome, gone⟩
  · intro id h hget
    obtain ⟨w, hw, hh, hid⟩ := hs.registered id h hget
    exact ⟨w, hw, hh, hid, hs.running w hw⟩
  · intro now r o harrival
    obtain ⟨hm, -⟩ | ⟨r', hm, hr, -⟩ | ⟨r', outcome, store, -, -, he⟩ :=
      receive_cases hs.idle now (.request r)
    · cases hm
    · cases hm
      rw [Connection.arrival, hr] at harrival
      cases harrival
    · rw [he, inbound, Session.hand_eq]
      rfl

/-- A server with a task store gets three requests under one identifier, one of them for a task
method, which is answered. Of the other two the older one is answered, and the newer one is still
registered; it is cancelled, and is not answered then. -/
theorem answers_at_most_once_same_identifier :
    ∃ acts st v w,
      Run (.start {} (some (.empty {} fun _ => []))) acts st ∧ v.request.id = w.request.id ∧
      (∃ r o, r.method = "tasks/list" ∧ r.id = v.request.id ∧
        st.arrivals = [.begun v, .answered r o, .begun w] ∧ st.answersTo 1 = [⟨r.id, o⟩]) ∧
      (∃ o, st.answersTo 0 = [⟨v.request.id, o⟩]) ∧
      st.IsFired w.handle ∧ w ∈ st.server.running ∧
      ∀ st', Step st (.poll w) st' → ∀ after st'', Run st' after st'' → st''.answersTo 2 = [] := by
  let v : Work := ⟨⟨.number 1, "ping", none⟩, ⟨0⟩⟩
  let task : Request := ⟨.number 1, "tasks/list", none⟩
  let w : Work := ⟨⟨.number 1, "pong", none⟩, ⟨1⟩⟩
  let now : Timestamp := ⟨0, 0⟩
  let stop : Message := Cancellation.toMessage ⟨.number 1, none⟩
  have run : Run (.start {} (some (.empty {} fun _ => []))) _ _ :=
    (((((Run.start.step (.receive now (.request v.request))).step
      (.receive now (.request task))).step (.receive now (.request w.request))).step
      (@Step.ready _ v (.result (.bool true)) List.mem_cons_self fun _ => List.not_mem_nil)).step
      (@Step.finish _ v 0 (.result (.bool true)) List.mem_cons_self rfl List.mem_cons_self)).step
      (.receive now stop)
  have hw : w ∈ [w] := List.mem_cons_self
  have busy : ∀ o, (w.handle, o) ∉ [(v.handle, (.result (.bool true) : Outcome))] := by
    intro o ho
    have he : 1 = 0 := congrArg (fun p => p.1.index) (List.mem_singleton.1 ho)
    exact absurd he Nat.one_ne_zero
  obtain ⟨-, -, -, -, -, -, hanswered, hwork, -⟩ := run.answers_at_most_once
  have hdropped := ((hwork 2 w rfl).2.dropped rfl hw busy [] _ .start fun _ => List.not_mem_nil).2
  exact ⟨_, _, v, w, run, rfl, ⟨task, _, rfl, rfl, rfl, hanswered 1 task _ rfl⟩, ⟨_, rfl⟩, rfl, hw,
    hdropped⟩

/-- A signal may fire while the handler is at work, and the request be answered all the same: the
handler comes to its outcome before the work is asked for it. And a handler may come to its outcome
on a connection that is not closed, while no signal fires, and the peer not be sent anything: the
writer has exited, and the response is dropped. -/
theorem answered_though_fired_unsent_though_quiet :
    (∃ acts st w more st' o, Run (.start {} none) acts st ∧ st.arrivals = [.begun w] ∧
      st.IsFired w.handle ∧ (∀ o, (w.handle, o) ∉ st.outcomes) ∧ Run st more st' ∧
      st'.server.session.sent = [.response ⟨w.request.id, o⟩]) ∧
    ∃ acts st w o, Run (.start {} none) acts st ∧ st.arrivals = [.begun w] ∧
      ¬ st.IsFired w.handle ∧ (w.handle, o) ∈ st.outcomes ∧ w ∉ st.server.running ∧
      st.server.isOpen = true ∧ st.server.session.sent = [] := by
  let w : Work := ⟨⟨.number 1, "ping", none⟩, ⟨0⟩⟩
  let now : Timestamp := ⟨0, 0⟩
  let begin : Step (.start {} none) _ _ := .receive now (.request w.request)
  have ended : ∀ st : Serving, st.server.running = [w] → st.outcomes = [] →
      st.arrivals[0]? = some (.begun w) → Run st _ _ := fun st running busy place =>
    (Run.start.step (@Step.ready st w (.result .null) (running ▸ List.mem_cons_self)
      fun _ => busy ▸ List.not_mem_nil)).step
      (@Step.finish _ w 0 (.result .null) (running ▸ List.mem_cons_self) place
        (List.mem_append_right _ List.mem_cons_self))
  constructor
  · have fired : Run (.start {} none) _ _ := (Run.start.step begin).step (.fire w.handle none)
    exact ⟨_, _, w, _, _, .result .null, fired, rfl, rfl, fun _ => List.not_mem_nil,
      ended _ rfl rfl rfl, rfl⟩
  · have relinked : Run (.start {} none) _ _ :=
      (Run.start.step begin).step (.relink (.refusing Writer.goneText) [])
    exact ⟨_, _, w, .result .null, relinked.append (ended _ rfl rfl rfl), rfl, nofun,
      List.mem_cons_self, List.not_mem_nil, rfl, rfl⟩

end Serving
end Switchboard
