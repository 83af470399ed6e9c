import Switchboard.Proofs.Dialogue.Server

/-!
# Answers reach the calls that they are for

`Heard` ties the client's history to what the server has sent: the client hears answers only, and of
answers only those that were sent. With the server's side (`Served`) and the client's
(`Session.Run.sound`) this gives `Run.no_crosstalk`: the outcome that a caller is told is the one
that the server produced for this very call.
-/

namespace Switchboard

open History (issued issue? ending?)

namespace Dialogue

variable {d d' : Dialogue} {act : Act} {acts : List Act} {h : List Moment}
  {clientConfig serverConfig : SessionConfig} {tasks : Option TaskStore}

/-- The client's history, as far as the server has a part in it. -/
structure Heard (clientConfig : SessionConfig) (acts : List Act) (d : Dialogue)
    (h : List Moment) : Prop where
  run : Session.Run { config := clientConfig } h d.client
  /-- What is answered was sent by the server. -/
  answered : ∀ r, .answered r ∈ h → .response r ∈ d.server.session.sent
  /-- The server cancels nothing. -/
  withdrawn : ∀ c, .withdrawn c ∉ h
  closed : .closed ∈ h → .client .close ∈ acts

theorem heard_start (clientConfig serverConfig : SessionConfig) (tasks : Option TaskStore) :
    Heard clientConfig [] (start clientConfig serverConfig tasks) [] :=
  ⟨.start, nofun, nofun, nofun⟩

/-- The client's side goes on. -/
theorem Heard.step {a : Action} {s : Session} (hh : Heard clientConfig acts d h)
    (step : Session.Step d.client a s) (n : Nat)
    (hans : ∀ r, .answered r ∈ d.client.stimuli a → .response r ∈ d.server.session.sent)
    (hwith : ∀ c, .withdrawn c ∉ d.client.stimuli a)
    (hclosed : .closed ∈ d.client.stimuli a → act = .client .close) :
    ∃ h', Heard clientConfig (acts ++ [act]) { d with client := s, toClient := n } h' := by
  refine ⟨_, hh.run.step step, fun r hr => ?_, fun c hc => ?_, fun hc => ?_⟩
  · rcases History.mem_of_mem_step hr rfl with hr | hr
    · exact hh.answered r hr
    · exact hans r hr
  · rcases History.mem_of_mem_step hc rfl with hc | hc
    · exact hh.withdrawn c hc
    · exact hwith c hc
  · rcases History.mem_of_mem_step hc rfl with hc | hc
    · exact List.mem_append_left _ (hh.closed hc)
    · exact List.mem_append_right _ (by rw [hclosed hc]; exact List.mem_cons_self)

/-- Something happens on the server's side. -/
theorem Heard.of_client_eq (hh : Heard clientConfig acts d h) (hclient : d'.client = d.client)
    (hsent : d.server.session.sent <+: d'.server.session.sent) :
    Heard clientConfig (acts ++ [act]) d' h := by
  refine ⟨hclient ▸ hh.run, fun r hr => hsent.subset (hh.answered r hr), hh.withdrawn, fun hc => ?_⟩
  exact List.mem_append_left _ (hh.closed hc)

/-- What the owner of a session does brings no answer and no cancellation by the peer. -/
theorem mem_stimuli_of_own {s : Session} {a : Action} {m : Moment} (own : a.isOwn = true)
    (hm : m ∈ s.stimuli a) :
    (∃ id reason, m = .cancelled id reason) ∨ (∃ now, m = .swept now) ∨
      (∃ millis, m = .waited millis) ∨ m = .closed ∧ a = .close := by
  cases a with
  | issue c | call spec | relink link upcoming => exact absurd hm List.not_mem_nil
  | cancelCall id reason => exact .inl ⟨id, reason, List.mem_singleton.1 hm⟩
  | checkTimeouts => exact .inr (.inl ⟨s.clock, List.mem_singleton.1 hm⟩)
  | wait millis => exact .inr (.inr (.inl ⟨millis, List.mem_singleton.1 hm⟩))
  | close => exact .inr (.inr (.inr ⟨List.mem_singleton.1 hm, rfl⟩))
  | respond | cancelled | beginInbound | finishInbound | handle =>
    exact absurd own Bool.false_ne_true

theorem Run.heard (run : Run (.start clientConfig serverConfig tasks) acts d) :
    ∃ h, Heard clientConfig acts d h := by
  induction run with
  | start => exact ⟨[], heard_start _ _ _⟩
  | @step acts d d' act run step ih =>
    obtain ⟨h, hh⟩ := ih
    have hs := run.served
    have hsent := step.isPrefix_sent hs
    cases step with
    | @client a s own step =>
      refine hh.step step d.toClient (fun r hr => ?_) (fun c hc => ?_) fun hc => ?_
      · rcases mem_stimuli_of_own own hr with ⟨_, _, he⟩ | ⟨_, he⟩ | ⟨_, he⟩ | ⟨he, -⟩ <;>
          exact absurd he nofun
      · rcases mem_stimuli_of_own own hc with ⟨_, _, he⟩ | ⟨_, he⟩ | ⟨_, he⟩ | ⟨he, -⟩ <;>
          exact absurd he nofun
      · rcases mem_stimuli_of_own own hc with ⟨_, _, he⟩ | ⟨_, he⟩ | ⟨_, he⟩ | ⟨-, rfl⟩
        · exact absurd he nofun
        · exact absurd he nofun
        · exact absurd he nofun
        · rfl
    | @answer m next =>
      obtain ⟨rs, hrs, -⟩ := hs.sent
      have hm : m ∈ d.server.session.sent := List.mem_of_getElem? next
      rw [hrs] at hm
      obtain ⟨r, hr, rfl⟩ := List.mem_map.1 hm
      refine hh.step (.handle (.response r)) _ (fun r' hr' => ?_) nofun nofun
      obtain rfl := Moment.answered.inj (List.mem_singleton.1 hr')
      rw [hrs]
      exact hm
    | serve | complete | abandon | retask | relink | close =>
      exact ⟨h, hh.of_client_eq rfl hsent⟩

/-! ### What a client is told -/

/-- The client's side of a run is sound. -/
theorem Heard.sound (hh : Heard clientConfig acts d h) (few : d.client.calls.length ≤ 2 ^ 64) :
    Session.Sound h d.client :=
  hh.run.sound (hh.run.few_iff.2 few)

/-- The requests that have arrived are among those that were sent. -/
theorem requests_sublist (d : Dialogue) :
    d.requests.Sublist (d.client.sent.filterMap Message.request?) :=
  (List.take_sublist _ _).filterMap _

/-- At most one request with an identifier arrives, and it is that of the call. -/
theorem requests_of_sound (sound : Session.Sound h d.client) {r : Request} (hr : r ∈ d.requests) :
    ∃ c expiry, issue? r.id h = some (c, expiry) ∧ r = c.spec.request r.id ∧
      d.requests.filter (fun q => q.id = r.id) = [r] := by
  have hsub := (requests_sublist d).filter fun q => q.id = r.id
  have hmem : r ∈ d.requests.filter fun q => q.id = r.id := List.mem_filter.2 ⟨hr, by simp⟩
  rcases sound.requests r.id with he | ⟨c, expiry, hi, he⟩
  · rw [he] at hsub
    rw [List.sublist_nil.1 hsub] at hmem
    exact absurd hmem List.not_mem_nil
  · rw [he] at hsub
    obtain hnil | hone := List.sublist_singleton.1 hsub
    · rw [hnil] at hmem
      exact absurd hmem List.not_mem_nil
    · rw [hone] at hmem ⊢
      have hreq := List.mem_singleton.1 hmem
      exact ⟨c, expiry, hi, hreq, by rw [← hreq]⟩

/-- No more outcomes are produced for an identifier than requests arrived. -/
theorem Served.produced_filter (hs : Served d) (id : RequestId) :
    ((d.produced.filter fun p => p.1.id = id).map Prod.fst).Subperm
      (d.requests.filter fun r => r.id = id) := by
  have hp : (d.produced.map Prod.fst).Subperm d.requests :=
    (List.sublist_append_left _ _).subperm.trans hs.assigned
  have hf := hp.filter fun r => decide (r.id = id)
  rwa [List.filter_map] at hf

theorem eq_singleton_of_mem {α : Type} {l : List α} {a : α} (hl : l.length ≤ 1) (ha : a ∈ l) :
    l = [a] := by
  match l with
  | [] => exact absurd ha List.not_mem_nil
  | [b] => rw [List.mem_singleton.1 ha]
  | _ :: _ :: _ => simp at hl

/-- The outcome of a request that arrived once is its only one. -/
theorem Served.produced_eq (hs : Served d) {p : Request × Outcome} (hp : p ∈ d.produced)
    (hone : d.requests.filter (fun r => r.id = p.1.id) = [p.1]) :
    d.produced.filter (fun q => q.1.id = p.1.id) = [p] := by
  refine eq_singleton_of_mem ?_ (List.mem_filter.2 ⟨hp, by simp⟩)
  have hlen := (hs.produced_filter p.1.id).length_le
  rw [hone, List.length_map] at hlen
  exact hlen

/-- Every response that was sent tells an outcome. -/
theorem Served.exists_of_response (hs : Served d) {r : Response}
    (hr : .response r ∈ d.server.session.sent) : ∃ p ∈ d.produced, told p = r := by
  obtain ⟨rs, hrs, hsub⟩ := hs.sent
  rw [hrs] at hr
  obtain ⟨r', hr', hmsg⟩ := List.mem_map.1 hr
  obtain rfl := Message.response.inj hmsg
  exact List.mem_map.1 (hsub.subset hr')

theorem Served.request_mem (hs : Served d) {p : Request × Outcome} (hp : p ∈ d.produced) :
    p.1 ∈ d.requests :=
  hs.assigned.subset (List.mem_append_left _ (List.mem_map.2 ⟨p, hp, rfl⟩))

/-- The requests of running work have arrived. -/
theorem Served.work_mem (hs : Served d) {w : Work} (hw : w ∈ d.server.running) :
    w.request ∈ d.requests :=
  hs.assigned.subset (List.mem_append_right _ (List.mem_map.2 ⟨w, hw, rfl⟩))

/-- The server sends at most one response for a request. -/
theorem Served.about_length_le (hs : Served d) (id : RequestId) :
    (d.server.session.about id).length ≤ (d.requests.filter fun r => r.id = id).length := by
  obtain ⟨rs, hrs, hsub⟩ := hs.sent
  have habout : (d.server.session.about id).length = (rs.filter fun r => r.id = id).length := by
    rw [Session.about, hrs, List.filter_map, List.length_map]
    congr 2
    funext r
    simp [Message.subject?]
  have htold : ((d.produced.map told).filter fun r => r.id = id).length =
      ((d.produced.filter fun p => p.1.id = id).map Prod.fst).length := by
    rw [List.filter_map, List.length_map, List.length_map]
    rfl
  rw [habout]
  refine Nat.le_trans (hsub.filter fun r => r.id = id).length_le ?_
  rw [htold]
  exact (hs.produced_filter id).length_le

/-- At most one request with an identifier arrives. -/
theorem requests_length_le (sound : Session.Sound h d.client) (id : RequestId) :
    (d.requests.filter fun r => r.id = id).length ≤ 1 := by
  refine Nat.le_trans ((requests_sublist d).filter fun r => r.id = id).length_le ?_
  rcases sound.requests id with he | ⟨c, expiry, -, he⟩
  · rw [he]
    exact Nat.zero_le 1
  · rw [he]
    exact Nat.le_refl 1

/-- **There is no cross-talk.** A call that was told a result or an error of the peer has had its
request, with its method and parameters, arrive exactly once, and was told the one outcome that the
server produced for it. The server answers no request twice, and an answer to a call that has been
settled changes nothing. -/
theorem Run.no_crosstalk (run : Run (.start clientConfig serverConfig tasks) acts d)
    (few : d.client.calls.length ≤ 2 ^ 64) :
    (∀ id c o, (c, (Ending.answered o).outcome) ∈ d.client.settlements id →
      (∃ expiry, .issued id c expiry ∈ d.client.log) ∧
      d.requests.filter (fun r => r.id = id) = [c.spec.request id] ∧
      d.produced.filter (fun p => p.1.id = id) = [(c.spec.request id, o)]) ∧
    (∀ id, (d.server.session.about id).length ≤ (d.requests.filter fun r => r.id = id).length ∧
      (d.requests.filter fun r => r.id = id).length ≤ 1) ∧
    ∀ id c outcome, (c, outcome) ∈ d.client.settlements id →
      ∀ o, (d.client.handle (.response ⟨id, o⟩)).2 = d.client := by
  obtain ⟨h, hh⟩ := run.heard
  have sound := hh.sound few
  have hs := run.served
  refine ⟨fun id c o hm => ?_, fun id => ⟨hs.about_length_le id, requests_length_le sound id⟩,
    fun id c outcome hm o => ?_⟩
  · obtain ⟨expiry, e, hi, he, ho, -⟩ := sound.of_settlement hm
    obtain rfl := Ending.eq_answered ho.symm
    obtain ⟨m, hm, rfl⟩ := History.exists_cause he
    obtain ⟨⟨q, o'⟩, hq, htold⟩ := hs.exists_of_response (hh.answered _ hm)
    obtain ⟨rfl, rfl⟩ := Response.mk.inj htold
    obtain ⟨c', expiry', hi', hqc, hone⟩ := requests_of_sound sound (hs.request_mem hq)
    obtain ⟨rfl, rfl⟩ := Prod.mk.inj (Option.some.inj (hi.symm.trans hi'))
    refine ⟨⟨expiry, hh.run.mem_log_of_issue? hi⟩, by rw [hone, ← hqc], ?_⟩
    rw [← hqc]
    exact hs.produced_eq hq hone
  · obtain ⟨-, -, -, -, -, hp⟩ := sound.of_settlement hm
    have hset : ∀ outcome, (d.client.settle id outcome).2 = d.client := fun outcome => by
      rw [Session.settle_of_not_pending hp]
    cases o with
    | result v => exact hset _
    | failure e => exact hset _

/-- A call that is served by a handler. -/
theorem no_crosstalk_served :
    ∃ acts d, Run (.start {} {} none) acts d ∧ d.client.calls.length ≤ 2 ^ 64 ∧
      ({ spec := { method := "ping" } }, .ok (.bool true)) ∈ d.client.settlements (.number 1) ∧
      d.requests.filter (fun r => r.id = .number 1) = [⟨.number 1, "ping", none⟩] ∧
      d.produced.filter (fun p => p.1.id = .number 1) =
        [(⟨.number 1, "ping", none⟩, .result (.bool true))] := by
  let call : Call := { spec := { method := "ping" } }
  let work : Work := ⟨⟨.number 1, "ping", none⟩, ⟨0⟩⟩
  let now : Timestamp := ⟨0, 0⟩
  have run : Run (.start {} {} none) _ _ :=
    (((Run.start.step (.client rfl (.issue call))).step (.serve now rfl rfl)).step
      (@Step.complete _ work (.result (.bool true)) List.mem_cons_self)).step (.answer rfl)
  have few : 1 ≤ 2 ^ 64 := by decide
  have hm : (call, .ok (.bool true)) ∈ [(call, (.ok (.bool true) : CallOutcome))] :=
    List.mem_cons_self
  have main := (run.no_crosstalk few).1 (.number 1) call (.result (.bool true)) hm
  exact ⟨_, _, run, few, hm, main.2.1, main.2.2⟩

end Dialogue
end Switchboard
