import Switchboard.Proofs.Connection.Basic
import Switchboard.Proofs.Dialogue.Basic
import Switchboard.Proofs.Session.Outcome
import Switchboard.Proofs.Session.Traffic

/-!
# What a server does with the messages of a client

`Served` is the invariant: every request that arrived has at most one outcome or is being worked on,
and everything that the server has sent is the outcome of such a request.
-/

namespace Switchboard

namespace Session

variable {s : Session}

/-- The record only grows. -/
theorem Step.isPrefix_log {a : Action} {s' : Session} (step : Step s a s') : s.log <+: s'.log := by
  obtain ⟨events, hlog, -⟩ := step.ticks.log
  exact ⟨events, hlog.symm⟩

/-- What is sent only grows. -/
theorem Step.isPrefix_sent {a : Action} {s' : Session} (step : Step s a s') : s.sent <+: s'.sent :=
  step.isPrefix_log.filterMap _

theorem sent_hand (s : Session) (m : Message) :
    (s.hand m).sent = s.sent ++ (s.turn.link.carry m).sent?.toList := by
  rw [hand_eq, sent, sent, List.filterMap_append]
  cases s.turn.link <;> rfl

end Session

namespace Dialogue

variable {d d' : Dialogue} {act : Act}

/-- The response that tells an outcome. -/
def told (p : Request × Outcome) : Response :=
  ⟨p.1.id, p.2⟩

/-- The requests that have reached the server. -/
def requests (d : Dialogue) : List Request :=
  d.received.filterMap Message.request?

/-- **What holds on the server's side.** -/
structure Served (d : Dialogue) : Prop where
  arrived : d.toServer ≤ d.client.sent.length
  /-- The server issues no calls. -/
  idle : d.server.session.pending = .empty
  /-- It sends outcomes only, each at most once. -/
  sent : ∃ rs : List Response,
    d.server.session.sent = rs.map .response ∧ rs.Sublist (d.produced.map told)
  /-- Every request that arrived has one outcome, or is worked on once, or neither. -/
  assigned : (d.produced.map Prod.fst ++ d.server.running.map Work.request).Subperm d.requests

theorem served_start (clientConfig serverConfig : SessionConfig) (tasks : Option TaskStore) :
    Served (start clientConfig serverConfig tasks) :=
  ⟨Nat.le_refl _, rfl, ⟨[], rfl, .slnil⟩, List.nil_subperm⟩

/-- What the client sends does not change what has arrived. -/
theorem take_of_isPrefix {n : Nat} {ms ms' : List Message} (hn : n ≤ ms.length)
    (hp : ms <+: ms') : ms'.take n = ms.take n := by
  obtain ⟨more, rfl⟩ := hp
  rw [List.take_append_of_le_length hn]

/-- The next message arrives behind the others. -/
theorem take_succ_of_next {n : Nat} {ms : List Message} {m : Message} (h : ms[n]? = some m) :
    ms.take (n + 1) = ms.take n ++ [m] := by
  rw [List.take_add_one, h]
  rfl

theorem filterMap_take_succ {β : Type} (f : Message → Option β) {n : Nat} {ms : List Message}
    {m : Message} (h : ms[n]? = some m) :
    (ms.take (n + 1)).filterMap f = (ms.take n).filterMap f ++ (f m).toList := by
  rw [take_succ_of_next h, List.filterMap_append]
  cases hm : f m <;> simp [hm]

/-- The server hands an outcome to its transport, and the transport may refuse it. -/
theorem sent_told {s : Session} {produced : List (Request × Outcome)} (p : Request × Outcome)
    (h : ∃ rs : List Response, s.sent = rs.map .response ∧ rs.Sublist (produced.map told)) :
    ∃ rs : List Response, (s.hand (.response (told p))).sent = rs.map .response ∧
      rs.Sublist ((produced ++ [p]).map told) := by
  obtain ⟨rs, hs, hsub⟩ := h
  rw [Session.sent_hand, hs]
  cases s.turn.link with
  | accepting =>
    refine ⟨rs ++ [told p], by simp [Link.carry, Event.sent?], ?_⟩
    rw [List.map_append]
    exact hsub.append (.refl _)
  | refusing reason =>
    refine ⟨rs, by simp [Link.carry, Event.sent?], ?_⟩
    rw [List.map_append]
    exact hsub.trans (List.sublist_append_left _ _)

/-! ### One act -/

/-- The client does something, and the server does not notice. -/
theorem Served.client (hs : Served d) {s : Session} (hp : d.client.sent <+: s.sent) (n : Nat) :
    Served { d with client := s, toClient := n } := by
  have hr : s.sent.take d.toServer = d.received := take_of_isPrefix hs.arrived hp
  refine ⟨Nat.le_trans hs.arrived hp.length_le, hs.idle, hs.sent, ?_⟩
  rw [requests, received, hr]
  exact hs.assigned

/-- A message arrives. -/
theorem Served.serve (hs : Served d) {m : Message} (now : Timestamp)
    (next : d.client.sent[d.toServer]? = some m) :
    Served
      { d with
        server := d.server.receive now m
        toServer := d.toServer + 1
        produced := d.produced ++ d.server.atOnce now m } := by
  have harrived : d.toServer + 1 ≤ d.client.sent.length :=
    (List.getElem?_eq_some_iff.1 next).1
  have hrequests : (d.client.sent.take (d.toServer + 1)).filterMap Message.request? =
      d.requests ++ m.request?.toList := filterMap_take_succ _ next
  obtain ⟨hm, hatOnce, he⟩ | ⟨r, rfl, hatOnce, he⟩ | ⟨r, outcome, store, rfl, hatOnce, he⟩ :=
    Connection.receive_cases hs.idle now m <;> rw [he, hatOnce]
  · rw [List.append_nil]
    refine ⟨harrived, hs.idle, hs.sent, ?_⟩
    rw [requests, received, hrequests, hm, Option.toList_none, List.append_nil]
    exact hs.assigned
  · rw [List.append_nil]
    refine ⟨harrived, hs.idle, hs.sent, ?_⟩
    rw [requests, received, hrequests, List.map_append, ← List.append_assoc]
    exact hs.assigned.append (.refl _)
  · refine ⟨harrived, ?_, sent_told (r, outcome) hs.sent, ?_⟩
    · rw [Session.hand_eq]
      exact hs.idle
    · rw [requests, received, hrequests, List.map_append, List.append_assoc]
      refine List.Subperm.trans ?_ (hs.assigned.append (.refl [r]))
      rw [List.append_assoc]
      exact (List.perm_append_comm.append_left _).subperm

/-- A piece of work ends. -/
theorem Served.complete (hs : Served d) {w : Work} (outcome : Outcome)
    (running : w ∈ d.server.running) :
    Served
      { d with
        server := d.server.complete w outcome
        produced := d.produced ++ [(w.request, outcome)] } := by
  refine ⟨hs.arrived, ?_, sent_told (w.request, outcome) hs.sent, ?_⟩
  · rw [Connection.complete, Session.hand_eq]
    exact hs.idle
  · refine List.Subperm.trans ?_ hs.assigned
    rw [List.map_append, List.append_assoc]
    exact (List.Subperm.refl _).append (Connection.map_cons_subperm Work.request running)

/-- **Every act keeps the server's side as it should be.** -/
theorem Step.served (step : Step d act d') (hs : Served d) : Served d' := by
  cases step with
  | client own step => exact hs.client step.isPrefix_sent d.toClient
  | serve now next isOpen => exact hs.serve now next
  | answer next => exact hs.client (Session.Step.handle _).isPrefix_sent _
  | complete outcome running => exact hs.complete outcome running
  | @abandon w running fired =>
    refine ⟨hs.arrived, hs.idle, hs.sent, List.Subperm.trans ?_ hs.assigned⟩
    exact (List.Subperm.refl _).append (List.filter_sublist.map _).subperm
  | retask change | relink link upcoming => exact ⟨hs.arrived, hs.idle, hs.sent, hs.assigned⟩
  | close =>
    have hc := Session.close_of_idle hs.idle
    refine ⟨hs.arrived, ?_, ?_, hs.assigned⟩
    · rw [Connection.close, hc]
      exact hs.idle
    · rw [Connection.close, hc]
      exact hs.sent

/-- What the server has sent only grows. -/
theorem Step.isPrefix_sent (step : Step d act d') (hs : Served d) :
    d.server.session.sent <+: d'.server.session.sent := by
  have hhand : ∀ (s : Session) m, s.sent <+: (s.hand m).sent := fun s m => by
    rw [Session.sent_hand]
    exact List.prefix_append _ _
  cases step with
  | @serve m now next isOpen =>
    obtain ⟨-, -, he⟩ | ⟨r, -, -, he⟩ | ⟨r, outcome, store, -, -, he⟩ :=
      Connection.receive_cases hs.idle now m <;> rw [he]
    · exact List.prefix_refl _
    · exact List.prefix_refl _
    · exact hhand _ _
  | @complete w outcome running => exact hhand (d.server.retire w (some outcome)).session _
  | close =>
    rw [Connection.close, Session.close_of_idle hs.idle]
    exact List.prefix_refl _
  | client | answer | abandon | retask | relink => exact List.prefix_refl _

/-- The client issues calls, and takes none back. -/
theorem Step.calls_length_le (step : Step d act d') :
    d.client.calls.length ≤ d'.client.calls.length := by
  cases step with
  | client own step => exact (step.isPrefix_log.filterMap _).length_le
  | answer next => exact ((Session.Step.handle _).isPrefix_log.filterMap _).length_le
  | serve | complete | abandon | retask | relink | close => exact Nat.le_refl _

theorem Run.served {clientConfig serverConfig : SessionConfig} {tasks : Option TaskStore}
    {acts : List Act} (run : Run (.start clientConfig serverConfig tasks) acts d) : Served d := by
  induction run with
  | start => exact served_start _ _ _
  | step run step ih => exact step.served ih

end Dialogue
end Switchboard
