import Switchboard.Proofs.Dialogue.Answers
import Switchboard.Proofs.Dialogue.Desk

/-!
# No work is left for a call that is over

`Step.attended` says that every act but the server's close keeps the work on the server attended to:
a request begins work under a new identifier, because the client has sent nothing about it before
(`subject?_ne_of_next`), and a cancellation comes behind the request that it is for.

A client whose transport takes every message sends a cancellation for each call that it gives up.
So in `Run.no_orphans` the registered work is for calls that still wait, up to the cancellations on
the way.
-/

namespace Switchboard

open History (issued issue? ending?)

/-- A cancellation is about the call that it names. -/
theorem Message.subject?_of_cancellation? {m : Message} {c : Cancellation}
    (hc : m.cancellation? = some c) : m.subject? = some c.id := by
  cases m with
  | notification n =>
    have hn : n.cancellation? = some c := hc
    rw [subject?, hn]
    rfl
  | request r | response r => simp [cancellation?] at hc

namespace Dialogue

variable {d d' : Dialogue} {act : Act} {acts : List Act} {h : List Moment}
  {clientConfig serverConfig : SessionConfig} {tasks : Option TaskStore}

/-- The cancellations that have reached the server. -/
def cancels (d : Dialogue) : List Cancellation :=
  d.received.filterMap Message.cancellation?

/-- The work on the server. -/
def desk (d : Dialogue) : Desk :=
  ⟨d.server.session.inbound, d.server.running, d.server.ended, d.cancels⟩

theorem attended_start (clientConfig serverConfig : SessionConfig) (tasks : Option TaskStore) :
    (start clientConfig serverConfig tasks).desk.Attended :=
  ⟨nofun, .nil, nofun, nofun, nofun, nofun⟩

/-- When a request arrives, nothing about its identifier has arrived before. -/
theorem subject?_ne_of_next (sound : Session.Sound h d.client) {r : Request}
    (next : d.client.sent[d.toServer]? = some (.request r)) {m : Message} (hm : m ∈ d.received) :
    m.subject? ≠ some r.id := by
  intro hsub
  have hsplit : d.client.sent =
      d.received ++ [.request r] ++ d.client.sent.drop (d.toServer + 1) := by
    rw [received, ← take_succ_of_next next, List.take_append_drop]
  have hmem : m ∈ d.received.filter fun m => m.subject? = some r.id :=
    List.mem_filter.2 ⟨hm, decide_eq_true hsub⟩
  have hself : [.request r].filter (fun m : Message => m.subject? = some r.id) = [.request r] :=
    List.filter_cons_of_pos (decide_eq_true rfl)
  -- the request stands behind something in the list of what was sent about its identifier
  have hget : (d.client.about r.id)[(d.received.filter fun m => m.subject? = some r.id).length]? =
      some (.request r) := by
    rw [Session.about, hsplit, List.filter_append, List.filter_append, hself, List.append_assoc,
      List.getElem?_append_right (Nat.le_refl _), Nat.sub_self]
    rfl
  obtain ⟨n, hn⟩ := Nat.exists_eq_succ_of_ne_zero (Nat.ne_of_gt (List.length_pos_of_mem hmem))
  rw [hn] at hget
  rcases sound.about r.id with he | ⟨c, expiry, -, he | ⟨reason, he⟩⟩ <;> rw [he] at hget
  · simp at hget
  · simp at hget
  · cases n with
    | zero => simp [Cancellation.toMessage] at hget
    | succ n => simp at hget

/-- A message arrives. -/
theorem attended_serve (hk : d.desk.Attended) (hs : Served d) (sound : Session.Sound h d.client)
    {m : Message} (now : Timestamp) (next : d.client.sent[d.toServer]? = some m) :
    ({ d with
      server := d.server.receive now m
      toServer := d.toServer + 1
      produced := d.produced ++ d.server.atOnce now m } : Dialogue).desk.Attended := by
  have hcancels : (d.client.sent.take (d.toServer + 1)).filterMap Message.cancellation? =
      d.cancels ++ m.cancellation?.toList := filterMap_take_succ _ next
  rw [desk, cancels, received, hcancels]
  obtain ⟨-, -, he⟩ | ⟨r, rfl, -, he⟩ | ⟨r, outcome, store, rfl, -, he⟩ :=
    Connection.receive_cases hs.idle now m <;> rw [he]
  · rw [Registry.hear]
    cases m.cancellation? with
    | none =>
      rw [Option.toList_none, List.append_nil]
      exact hk
    | some c => exact hk.hear c
  · rw [Message.cancellation?, Option.toList_none, List.append_nil]
    refine hk.begin (fun w hw hid => ?_) fun c hc hid => ?_
    · obtain ⟨m, hm, hmr⟩ := List.mem_filterMap.1 (hs.work_mem hw)
      obtain rfl := Message.eq_request hmr
      exact subject?_ne_of_next sound next hm (congrArg some hid)
    · obtain ⟨m, hm, hmc⟩ := List.mem_filterMap.1 hc
      refine subject?_ne_of_next sound next hm ?_
      rw [Message.subject?_of_cancellation? hmc, hid]
  · rw [Message.cancellation?, Option.toList_none, List.append_nil, Session.hand_eq]
    exact hk

/-- **Every act but the server's close keeps the work attended to.** -/
theorem Step.attended (step : Step d act d') (hs : Served d) (sound : Session.Sound h d.client)
    (hopen : act ≠ .close) (hk : d.desk.Attended) : d'.desk.Attended := by
  have hsame : ∀ (s : Session) n, d.client.sent <+: s.sent →
      ({ d with client := s, toClient := n } : Dialogue).desk = d.desk := fun s n hp => by
    rw [desk, cancels, received, take_of_isPrefix hs.arrived hp]
    rfl
  cases step with
  | client own step =>
    have he := hsame _ d.toClient step.isPrefix_sent
    rw [he]
    exact hk
  | answer next =>
    rw [hsame _ _ (Session.Step.handle _).isPrefix_sent]
    exact hk
  | @serve m now next isOpen => exact attended_serve hk hs sound now next
  | @complete w outcome running =>
    have he : ({ d with
        server := d.server.complete w outcome
        produced := d.produced ++ [(w.request, outcome)] } : Dialogue).desk =
          d.desk.retire w (some outcome) := by
      rw [Connection.complete, Session.hand_eq]
      rfl
    rw [he]
    exact hk.retire running (by simp)
  | @abandon w running fired => exact hk.retire running fun _ => fired
  | retask change | relink link upcoming => exact hk
  | close => exact absurd rfl hopen

/-! ### Runs -/

/-- What holds of a dialogue that the server has not closed, with the client's history. -/
structure Lively (clientConfig : SessionConfig) (acts : List Act) (d : Dialogue)
    (h : List Moment) : Prop where
  heard : Heard clientConfig acts d h
  sound : Session.Sound h d.client
  served : Served d
  attended : d.desk.Attended

theorem Run.lively (run : Run (.start clientConfig serverConfig tasks) acts d)
    (few : d.client.calls.length ≤ 2 ^ 64) (unclosed : .close ∉ acts) :
    ∃ h, Lively clientConfig acts d h := by
  have hattended : d.desk.Attended := by
    induction run with
    | start => exact attended_start _ _ _
    | @step acts d d' act run step ih =>
      have hfew := Nat.le_trans step.calls_length_le few
      obtain ⟨h, hh⟩ := run.heard
      refine step.attended run.served (hh.sound hfew) (fun he => unclosed ?_) (ih hfew fun hm => ?_)
      · exact List.mem_append_right _ (he ▸ List.mem_cons_self)
      · exact unclosed (List.mem_append_left _ hm)
  obtain ⟨h, hh⟩ := run.heard
  exact ⟨h, hh, hh.sound few, run.served, hattended⟩

namespace Lively

variable {id : RequestId} {w : Work} {c : Call} {expiry : Option Nat} {e : Ending}

/-- Work that runs has had no outcome yet. -/
theorem not_produced (hl : Lively clientConfig acts d h) (hw : w ∈ d.server.running)
    {p : Request × Outcome} (hp : p ∈ d.produced) : p.1.id ≠ w.request.id := by
  intro hid
  have hsub := hl.served.assigned.filter fun r => decide (r.id = w.request.id)
  have hlen := Nat.le_trans hsub.length_le (requests_length_le hl.sound w.request.id)
  have hp' : p.1 ∈ (d.produced.map Prod.fst).filter fun r => decide (r.id = w.request.id) :=
    List.mem_filter.2 ⟨List.mem_map.2 ⟨p, hp, rfl⟩, decide_eq_true hid⟩
  have hw' : w.request ∈
      (d.server.running.map Work.request).filter fun r => decide (r.id = w.request.id) :=
    List.mem_filter.2 ⟨List.mem_map.2 ⟨w, hw, rfl⟩, decide_eq_true rfl⟩
  have hp'' := List.length_pos_of_mem hp'
  have hw'' := List.length_pos_of_mem hw'
  rw [List.filter_append, List.length_append] at hlen
  omega

/-- **A call whose work runs can only have ended by what the peer is told of.** -/
theorem exists_notice (hl : Lively clientConfig acts d h) (hw : w ∈ d.server.running)
    (accepted : d.client.Accepted) (unclosed : .client .close ∉ acts)
    (he : ending? w.request.id h = some e) : ∃ reason, e.notice? = some reason := by
  obtain ⟨m, hm, hcause⟩ := History.exists_cause he
  cases e with
  | cancelled reason => exact ⟨reason, rfl⟩
  | expired => exact ⟨_, rfl⟩
  | refused reason =>
    obtain ⟨r, rfl⟩ := hcause
    refine absurd ?_ (accepted (.request r) reason)
    rw [← hl.heard.run.events_eq]
    exact List.mem_filterMap.2 ⟨_, hm, rfl⟩
  | answered o =>
    obtain rfl := hcause
    obtain ⟨p, hp, htold⟩ := hl.served.exists_of_response (hl.heard.answered _ hm)
    exact absurd (congrArg Response.id htold) (hl.not_produced hw hp)
  | withdrawn reason =>
    obtain rfl := hcause
    exact absurd hm (hl.heard.withdrawn _)
  | disconnected =>
    obtain rfl := hcause
    exact absurd (hl.heard.closed hm) unclosed

/-- A cancellation that has arrived gives the reason that the peer is told for this ending. -/
theorem notice_of_cancel (hl : Lively clientConfig acts d h) (accepted : d.client.Accepted)
    {k : Cancellation} (hk : k ∈ d.cancels) :
    ∃ e, ending? k.id h = some e ∧ e.notice? = some k.reason := by
  obtain ⟨m, hm, hmk⟩ := List.mem_filterMap.1 hk
  have hmem : m ∈ d.client.about k.id := by
    refine List.mem_filter.2 ⟨List.mem_of_mem_take hm, decide_eq_true ?_⟩
    exact Message.subject?_of_cancellation? hmk
  rcases hl.sound.about k.id with hnil | ⟨c, expiry, hi, -⟩
  · rw [hnil] at hmem
    exact absurd hmem List.not_mem_nil
  · rw [hl.sound.about_of_accepted accepted hi] at hmem
    rcases List.mem_cons.1 hmem with rfl | hmem
    · exact absurd hmk nofun
    · obtain ⟨reason, hreason, rfl⟩ := List.mem_map.1 hmem
      obtain ⟨e, he, hn⟩ := Option.bind_eq_some_iff.1 (Option.mem_toList.1 hreason)
      have hk' : some (⟨k.id, reason⟩ : Cancellation) = some k :=
        (Cancellation.cancellation?_toNotification _).symm.trans hmk
      refine ⟨e, he, ?_⟩
      rw [hn, ← Option.some.inj hk']

/-- **Registered work is for a call that waits, or its cancellation is on the way.** -/
theorem waits_or_told (hl : Lively clientConfig acts d h) (accepted : d.client.Accepted)
    (unclosed : .client .close ∉ acts) (hw : w ∈ d.server.running)
    (hget : d.desk.handle? w.request.id = some w.handle) :
    (∃ c, w.request = c.spec.request w.request.id ∧
        d.client.pending.get? w.request.id = some c) ∨
      ∃ reason, Cancellation.toMessage ⟨w.request.id, reason⟩ ∈ d.upstream := by
  obtain ⟨c, expiry, hi, hreq, -⟩ := requests_of_sound hl.sound (hl.served.work_mem hw)
  cases he : ending? w.request.id h with
  | none => exact .inl ⟨c, hreq, (hl.sound.views w.request.id).waiting? hi he⟩
  | some e =>
    obtain ⟨reason, hn⟩ := hl.exists_notice hw accepted unclosed he
    refine .inr ⟨reason, ?_⟩
    have habout := hl.sound.about_of_accepted accepted hi
    rw [he, Option.bind_some, hn] at habout
    have hmem : Cancellation.toMessage ⟨w.request.id, reason⟩ ∈ d.client.about w.request.id := by
      rw [habout]
      exact List.mem_cons_of_mem _ List.mem_cons_self
    have hsent := List.mem_of_mem_filter hmem
    rw [← List.take_append_drop d.toServer d.client.sent] at hsent
    -- had it arrived, the work would not be registered any more
    refine (List.mem_append.1 hsent).resolve_left fun hreceived => ?_
    refine (hl.attended.quiet w hw hget).2 ⟨w.request.id, reason⟩ ?_ rfl
    exact List.mem_filterMap.2 ⟨_, hreceived, Cancellation.cancellation?_toNotification _⟩

/-- **Once nothing is on the way, the work for a call that has ended was stopped**, for the reason
that the peer is told, unless it had an outcome first. -/
theorem stopped_or_done (hl : Lively clientConfig acts d h) (accepted : d.client.Accepted)
    (unclosed : .client .close ∉ acts) (arrived : d.upstream = [])
    (hw : w ∈ d.server.running ∨ ∃ o, ⟨w, o⟩ ∈ d.server.ended) {outcome : CallOutcome}
    (hm : (c, outcome) ∈ d.client.settlements w.request.id) :
    (∃ (e : Ending) (reason : Option String), outcome = e.outcome ∧ e.notice? = some reason ∧
      d.desk.signal w = .fired reason) ∨
      d.desk.signal w = .quiet ∧ ∃ o, ⟨w, some o⟩ ∈ d.server.ended := by
  obtain ⟨expiry, e, -, he, ho, hp⟩ := hl.sound.of_settlement hm
  have hstopped : d.desk.Stopped w →
      ∃ (e : Ending) (reason : Option String), outcome = e.outcome ∧ e.notice? = some reason ∧
        d.desk.signal w = .fired reason := by
    rintro ⟨k, hk, hid, hfired⟩
    obtain ⟨e', he', hn⟩ := hl.notice_of_cancel accepted hk
    rw [hid, he] at he'
    obtain rfl := Option.some.inj he'
    exact ⟨e, k.reason, ho, hn, hfired⟩
  rcases hw with hw | ⟨o, hx⟩
  · rcases hl.attended.running w hw with hget | hs
    · rcases hl.waits_or_told accepted unclosed hw hget with ⟨c', -, hget'⟩ | ⟨reason, hmem⟩
      · exact absurd (hp.symm.trans hget') nofun
      · rw [arrived] at hmem
        exact absurd hmem List.not_mem_nil
    · exact .inl (hstopped hs)
  · rcases hl.attended.ended _ hx with hs | ⟨hquiet, hsome⟩
    · exact .inl (hstopped hs)
    · obtain ⟨o', rfl⟩ := Option.ne_none_iff_exists'.1 hsome
      exact .inr ⟨hquiet, o', hx⟩

end Lively

/-- A piece of work was stopped for a reason, unless it had an outcome first. -/
def StoppedOrDone (d : Dialogue) (w : Work) (reason : Option String) : Prop :=
  d.server.session.inbound.signal w.handle = .fired reason ∨
    d.server.session.inbound.signal w.handle = .quiet ∧ ∃ o, ⟨w, some o⟩ ∈ d.server.ended

/-- **No work is left for a call that is over**, as long as neither side has closed and the client's
transport has taken every message. What is registered on the server is for a call that waits, or the
cancellation of it is on the way. Running work is registered and was not told to stop, or it was
told by a cancellation that has arrived. Once nothing is on the way, all registered work is for
calls that wait, and the work for calls that timed out or were cancelled was stopped for that
reason, unless it had an outcome first. -/
theorem Run.no_orphans (run : Run (.start clientConfig serverConfig tasks) acts d)
    (few : d.client.calls.length ≤ 2 ^ 64) (serverOpen : .close ∉ acts)
    (clientOpen : .client .close ∉ acts) (accepted : d.client.Accepted) :
    (∀ id, d.server.session.inbound.isRegistered id = true →
      d.client.pending.contains id = true ∨
        ∃ reason, Cancellation.toMessage ⟨id, reason⟩ ∈ d.upstream) ∧
    (∀ w ∈ d.server.running,
      d.server.session.inbound.table.get? w.request.id = some w.handle ∧
          d.server.session.inbound.signal w.handle = .quiet ∨
        ∃ k ∈ d.cancels, k.id = w.request.id ∧
          d.server.session.inbound.signal w.handle = .fired k.reason) ∧
    (d.upstream = [] →
      (∀ id handle, d.server.session.inbound.table.get? id = some handle →
        ∃ w ∈ d.server.running, ∃ c, w.handle = handle ∧ w.request = c.spec.request id ∧
          d.client.pending.get? id = some c) ∧
      ∀ w, (w ∈ d.server.running ∨ ∃ o, ⟨w, o⟩ ∈ d.server.ended) →
        (∀ c, (c, .error .timeout) ∈ d.client.settlements w.request.id →
          d.StoppedOrDone w (some "request timed out")) ∧
        ∀ c reason, (c, .error (.cancelled reason)) ∈ d.client.settlements w.request.id →
          d.StoppedOrDone w reason) := by
  obtain ⟨h, hl⟩ := run.lively few serverOpen
  have hregistered : ∀ id handle, d.server.session.inbound.table.get? id = some handle →
      ∃ w ∈ d.server.running, w.handle = handle ∧
        ((∃ c, w.request = c.spec.request id ∧ d.client.pending.get? id = some c) ∨
          ∃ reason, Cancellation.toMessage ⟨id, reason⟩ ∈ d.upstream) := fun id handle hget => by
    obtain ⟨w, hw, rfl, rfl⟩ := hl.attended.serves id handle hget
    exact ⟨w, hw, rfl, hl.waits_or_told accepted clientOpen hw hget⟩
  refine ⟨fun id hreg => ?_, fun w hw => ?_,
    fun arrived => ⟨fun id handle hget => ?_, fun w hw => ⟨?_, ?_⟩⟩⟩
  · obtain ⟨handle, hget⟩ := Option.isSome_iff_exists.1 hreg
    obtain ⟨w, -, -, ⟨c, -, hp⟩ | htold⟩ := hregistered id handle hget
    · left
      rw [Table.contains, hp]
      rfl
    · exact .inr htold
  · refine (hl.attended.running w hw).imp_left fun hget => ?_
    exact ⟨hget, (hl.attended.quiet w hw hget).1⟩
  · obtain ⟨w, hw, hh, ⟨c, hreq, hp⟩ | ⟨reason, htold⟩⟩ := hregistered id handle hget
    · exact ⟨w, hw, c, hh, hreq, hp⟩
    · rw [arrived] at htold
      exact absurd htold List.not_mem_nil
  · intro c hm
    refine (hl.stopped_or_done accepted clientOpen arrived hw hm).imp_left ?_
    rintro ⟨e, reason, ho, hn, hfired⟩
    rcases Ending.outcome_of_notice hn with ho' | ⟨-, rfl⟩
    · exact absurd (ho.trans ho') (by simp)
    · exact hfired
  · intro c reason hm
    refine (hl.stopped_or_done accepted clientOpen arrived hw hm).imp_left ?_
    rintro ⟨e, reason', ho, hn, hfired⟩
    rcases Ending.outcome_of_notice hn with ho' | ⟨ho', -⟩
    · obtain rfl : reason = reason' := by simpa using ho.trans ho'
      exact hfired
    · exact absurd (ho.trans ho') (by simp)

/-- A call times out while a handler works on it. -/
theorem no_orphans_timed_out :
    ∃ acts d w, Run (.start {} {} none) acts d ∧ d.client.calls.length ≤ 2 ^ 64 ∧
      .close ∉ acts ∧ .client .close ∉ acts ∧ d.client.Accepted ∧ d.upstream = [] ∧
      w ∈ d.server.running ∧
      ({ spec := { method := "ping", timeout := some 5 } }, .error .timeout) ∈
        d.client.settlements w.request.id ∧
      d.StoppedOrDone w (some "request timed out") := by
  let call : Call := { spec := { method := "ping", timeout := some 5 } }
  let work : Work := ⟨⟨.number 1, "ping", none⟩, ⟨0⟩⟩
  let now : Timestamp := ⟨0, 0⟩
  have run : Run (.start {} {} none) _ _ :=
    ((((Run.start.step (.client rfl (.issue call))).step (.serve now rfl rfl)).step
      (.client rfl (.wait 5))).step (.client rfl (Session.step_checkTimeouts _))).step
      (.serve now rfl rfl)
  have few : 1 ≤ 2 ^ 64 := by decide
  have hw : work ∈ [work] := List.mem_cons_self
  have hm : (call, .error .timeout) ∈ [(call, (.error .timeout : CallOutcome))] :=
    List.mem_cons_self
  have accepted : ∀ m reason, Event.refused m reason ∉ [.issued work.request.id call (some 5),
      .sent (.request work.request), .settled work.request.id call (.error .timeout),
      .sent (Cancellation.toMessage ⟨work.request.id, some "request timed out"⟩)] := by simp
  have main := ((run.no_orphans few (by simp) (by simp) accepted).2.2 rfl).2 work (.inl hw)
  exact ⟨_, _, work, run, few, by simp, by simp, accepted, rfl, hw, hm, main.1 call hm⟩

end Dialogue
end Switchboard
