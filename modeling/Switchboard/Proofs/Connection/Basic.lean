import Mathlib.Data.List.Perm.Subperm
import Switchboard.Connection
import Switchboard.Proofs.Cancel.Registry
import Switchboard.Proofs.Session.Traffic

/-!
# What a message does to a connection

A server issues no calls, so its session has none that wait, and a message can only change its
registrations (`Session.handle_of_idle`), begin work, or be answered at once
(`Connection.receive_cases`).
-/

namespace Switchboard

/-- The cancellation that a message is. -/
def Message.cancellation? : Message → Option Cancellation
  | .notification n => n.cancellation?
  | .request _ | .response _ => none

theorem Message.eq_request {m : Message} {r : Request} (h : m.request? = some r) :
    m = .request r := by
  cases m with
  | request r' => rw [Option.some.inj h]
  | notification n | response r' => exact absurd h (by simp [request?])

/-- A registry after a message: a cancellation may fire the handle of a request. -/
def Registry.hear (r : Registry) (m : Message) : Registry :=
  match m.cancellation? with
  | some c => (r.cancel c.id c.reason).2
  | none => r

namespace Registry

variable {r : Registry} {h : Handle}

theorem length_signals_hear (r : Registry) (m : Message) :
    (r.hear m).signals.all.length = r.signals.all.length := by
  rw [hear]
  cases m.cancellation? with
  | none => rfl
  | some c => exact length_signals_cancel r c.id c.reason

theorem isFired_hear (hf : (r.signal h).isFired = true) (m : Message) :
    ((r.hear m).signal h).isFired = true := by
  rw [hear]
  cases m.cancellation? with
  | none => exact hf
  | some c => exact isFired_cancel hf c.id c.reason

/-- A message registers nothing. -/
theorem get?_of_hear {id : RequestId} {m : Message} (hget : (r.hear m).table.get? id = some h) :
    r.table.get? id = some h := by
  rw [hear] at hget
  cases hm : m.cancellation? with
  | none =>
    rw [hm] at hget
    exact hget
  | some c =>
    rw [hm, get?_cancel] at hget
    exact (Option.ite_none_left_eq_some.1 hget).2

end Registry

namespace Session

variable {s : Session}

/-- **A session without calls takes a message in by its registry alone.** -/
theorem handle_of_idle (hp : s.pending = .empty) (m : Message) :
    (s.handle m).2 = { s with inbound := s.inbound.hear m } := by
  have hset : ∀ id outcome, (s.settle id outcome).2 = s := fun id outcome => by
    have hget : s.pending.get? id = none := by rw [hp, Table.get?_empty]
    rw [settle_of_not_pending hget]
  cases m with
  | request r => rfl
  | response r => exact (respond_eq s r).trans (hset _ _)
  | notification n =>
    cases hn : n.cancellation? with
    | none => rw [handle_of_not_cancellation hn, Registry.hear, Message.cancellation?, hn]
    | some c =>
      rw [handle_of_cancellation hn, Registry.hear, Message.cancellation?, hn]
      cases hr : s.inbound.table.get? c.id with
      | none =>
        rw [cancelled_of_not_registered hr, hset]
        simp only [Registry.cancel_of_not_registered hr]
      | some handle => rw [cancelled_of_registered hr]

/-- A session without calls closes by signalling its registered work. -/
theorem close_of_idle (hp : s.pending = .empty) : s.close = s.cancelInbound := by
  rw [close, hp]
  simp only [PendingCalls.drain, Table.toList, Table.empty, disconnectAll, List.foldl_nil]
  congr 1
  cases s
  simp only at hp
  rw [hp]
  rfl

end Session

/-- The outcomes that a connection has at once when a message arrives: those of task methods. -/
def Connection.atOnce (now : Timestamp) (c : Connection) : Message → List (Request × Outcome)
  | .request r =>
    ((c.tasks.bind fun store => store.answer? now r).map fun answer => (r, answer.1)).toList
  | .notification _ | .response _ => []

namespace Connection

variable {c : Connection} {now : Timestamp}

/-! ### One message -/

theorem receive_of_answer {r : Request} {outcome : Outcome} {store : TaskStore}
    (ha : (c.tasks.bind fun store => store.answer? now r) = some (outcome, store)) :
    c.receive now (.request r) =
      { c with tasks := some store, session := c.session.hand (.response ⟨r.id, outcome⟩) } := by
  simp only [receive, Session.handle, dispatch, ha]

theorem receive_of_work {r : Request}
    (ha : (c.tasks.bind fun store => store.answer? now r) = none) :
    c.receive now (.request r) =
      { c with
        session := (c.session.beginInbound r.id).2
        running := c.running ++ [⟨r, (c.session.beginInbound r.id).1⟩] } := by
  simp only [receive, Session.handle, dispatch, ha]

theorem receive_of_not_request {m : Message} (hm : m.request? = none) :
    c.receive now m = { c with session := (c.session.handle m).2 } := by
  rw [receive]
  split
  · rename_i r s hs
    cases m with
    | request r => exact absurd hm (by simp [Message.request?])
    | response r => exact absurd hs (by simp [Session.handle])
    | notification n =>
      rw [Session.handle] at hs
      split at hs <;> simp at hs
  · rename_i s hs
    rw [hs]

/-- **What becomes of a server by a message**, if it has no calls: only its registry changes, or
work begins, or a request is answered at once. -/
theorem receive_cases (hp : c.session.pending = .empty) (now : Timestamp) (m : Message) :
    (m.request? = none ∧ c.atOnce now m = [] ∧
      c.receive now m =
        { c with session := { c.session with inbound := c.session.inbound.hear m } }) ∨
    (∃ r, m = .request r ∧ c.atOnce now m = [] ∧
      c.receive now m =
        { c with
          session := (c.session.beginInbound r.id).2
          running := c.running ++ [⟨r, (c.session.beginInbound r.id).1⟩] }) ∨
    ∃ r outcome store, m = .request r ∧ c.atOnce now m = [(r, outcome)] ∧
      c.receive now m =
        { c with tasks := some store, session := c.session.hand (.response ⟨r.id, outcome⟩) } := by
  cases hm : m.request? with
  | none =>
    left
    rw [receive_of_not_request hm, Session.handle_of_idle hp]
    refine ⟨rfl, ?_, rfl⟩
    cases m with
    | request r => exact absurd hm nofun
    | notification n | response r => rfl
  | some r =>
    right
    obtain rfl := Message.eq_request hm
    cases ha : c.tasks.bind fun store => store.answer? now r with
    | none =>
      left
      refine ⟨r, rfl, ?_, receive_of_work ha⟩
      rw [atOnce, ha]
      rfl
    | some answer =>
      right
      refine ⟨r, answer.1, answer.2, rfl, ?_, receive_of_answer ha⟩
      rw [atOnce, ha]
      rfl

/-- A piece of work that is retired does not run any more. -/
theorem map_cons_subperm {β : Type} (f : Work → β) {w : Work} {ws : List Work} (hw : w ∈ ws) :
    (f w :: (ws.filter fun v => v.handle ≠ w.handle).map f).Subperm (ws.map f) := by
  have hself : w ∈ ws.filter fun v => !decide (v.handle ≠ w.handle) := by
    rw [List.mem_filter]
    exact ⟨hw, by simp⟩
  have hsplit := List.filter_append_perm (fun v : Work => decide (v.handle ≠ w.handle)) ws
  have hsub : (w :: ws.filter fun v => v.handle ≠ w.handle).Subperm ws := by
    refine List.Subperm.trans ?_ hsplit.subperm
    refine (List.perm_append_singleton w _).symm.subperm.trans ?_
    exact ((List.singleton_sublist.2 hself).append_left _).subperm
  obtain ⟨l, hperm, hl⟩ := hsub
  exact ⟨l.map f, hperm.map f, hl.map f⟩

end Connection

end Switchboard
