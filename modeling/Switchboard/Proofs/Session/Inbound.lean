import Switchboard.Proofs.Cancel.Replay
import Switchboard.Proofs.Session.Operations

/-!
# The requests of the peer over a run

A session keeps the requests of the peer in a registry, and nothing but its inbound operations, a
cancellation by the peer, the close and the firing of handles ever changes that registry:
`Hosting.inbound_eq`. What is known of a registry over all that happens to it is thereby known of
every session there can be.

The close signals the work of every request whose identifier was not used again while it ran
(`Hosting.signal_close`). Work that lost its place to a newer request is not signalled: the session
has forgotten its handle.

Once a request has ended, a cancellation under its identifier finds no work
(`Hosting.late_cancellation`). A cancellation does not say whose identifiers it means, so it then is
for the own call that waits under the same identifier, if there is one.

Identifiers may be used again, and the end of older work may be reported late, or twice. Through all
of this an identifier stands for its newest request, until something ends that
(`Hosting.stands_for_newest`).
-/

namespace Switchboard
namespace Session

variable {config : SessionConfig} {events before after : List InboundEvent} {s s' : Session}
  {id : RequestId} {handle : Handle}

/-! ### Sessions with what has happened to the requests of the peer -/

/-- What an action does to the requests of the peer. -/
def inboundEvent? (s : Session) : Action → Option InboundEvent
  | .beginInbound id => some (.begun id (s.beginInbound id).1)
  | .finishInbound id handle => some (.finished id handle)
  | .cancelled c => some (.cancelled c)
  | .handle (.notification n) => n.cancellation?.map .cancelled
  | .close => some .closed
  | .handle (.request _) | .handle (.response _) | .issue _ | .call _ | .respond _
  | .cancelCall _ _ | .checkTimeouts | .wait _ | .relink _ _ => none

/-- The sessions that there can be, each with what has happened to the requests of the peer: any
actions one after another, and in between somebody who holds a handle may fire it. -/
inductive Hosting (config : SessionConfig) : List InboundEvent → Session → Prop
  | start : Hosting config [] { config }
  | step {events : List InboundEvent} {s s' : Session} {a : Action}
      (hosting : Hosting config events s) (step : Step s a s') :
      Hosting config (events ++ (s.inboundEvent? a).toList) s'
  | fire {events : List InboundEvent} {s : Session} (hosting : Hosting config events s)
      (handle : Handle) (reason : Option String) :
      Hosting config (events ++ [.fired handle reason])
        { s with inbound := s.inbound.fire handle reason }

theorem inbound_respond (s : Session) (r : Response) : (s.respond r).inbound = s.inbound := by
  rw [respond]
  split <;> exact (onward_settle s _ _).inbound

theorem inbound_cancelled (s : Session) (c : Cancellation) :
    (s.cancelled c).inbound = (s.inbound.cancel c.id c.reason).2 := by
  cases hr : s.inbound.table.get? c.id with
  | some handle => rw [cancelled_of_registered hr]
  | none =>
    rw [cancelled_of_not_registered hr, (onward_settle s _ _).inbound,
      Registry.cancel_of_not_registered hr]

theorem inbound_close (s : Session) (order : List (RequestId × Call)) :
    (s.disconnectAll order).cancelInbound.inbound =
      (s.inbound.cancelAll (some "connection closed")).2 := by
  rw [cancelInbound, (onward_disconnectAll s order).inbound]

/-- An action changes the registry as it says, whatever calls it settles. -/
theorem Step.inbound_eq {a : Action} (step : Step s a s') :
    s'.inbound = Registry.replay (s.inboundEvent? a).toList s.inbound := by
  cases step with
  | issue c => exact (onward_follow _ s).inbound
  | call spec => exact (onward_call s spec).inbound
  | respond r => exact inbound_respond s r
  | cancelled c => exact inbound_cancelled s c
  | cancelCall id reason => exact (onward_abort s id _ _).inbound
  | checkTimeouts ho => exact (onward_expireAll s _).inbound
  | close ho => exact inbound_close s _
  | beginInbound id | finishInbound id handle | wait millis | relink link upcoming => rfl
  | handle msg =>
    cases msg with
    | request r => rfl
    | response r => exact inbound_respond s r
    | notification n =>
      cases hn : n.cancellation? with
      | none =>
        rw [handle_of_not_cancellation hn, inboundEvent?, hn]
        rfl
      | some c =>
        rw [handle_of_cancellation hn, inboundEvent?, hn]
        exact inbound_cancelled s c

/-- **What has happened to the requests of the peer decides the registry.** -/
theorem Hosting.inbound_eq (hosting : Hosting config events s) :
    s.inbound = Registry.replay events {} := by
  induction hosting with
  | start => rfl
  | step hosting step ih => rw [step.inbound_eq, ih, Registry.replay_append]
  | fire hosting handle reason ih =>
    rw [Registry.replay_append, ← ih]
    rfl

theorem Hosting.names (hosting : Hosting config events s) : Registry.Names events {} := by
  induction hosting with
  | start => trivial
  | @step events s s' a hosting step ih =>
    rw [Registry.names_append, ← hosting.inbound_eq]
    refine ⟨ih, ?_⟩
    cases he : s.inboundEvent? a with
    | none => trivial
    | some e =>
      rw [Option.toList_some, Registry.names_singleton]
      rintro id handle rfl
      cases step with
      | beginInbound id' =>
        cases he
        rfl
      | handle msg =>
        cases msg with
        | request r | response r => cases he
        | notification n => simp [inboundEvent?] at he
      | issue | call | respond | cancelled | cancelCall | checkTimeouts | close | finishInbound
      | wait | relink => cases he
  | fire hosting handle reason ih =>
    rw [Registry.names_append, Registry.names_singleton]
    exact ⟨ih, nofun⟩

/-- The registry after work has begun: its handle is registered under its identifier, and under no
other. -/
theorem Hosting.begun (hosting : Hosting config (before ++ .begun id handle :: after) s) :
    ∃ r : Registry, s.inbound = Registry.replay after r ∧ handle.index < r.signals.all.length ∧
      ∀ id', r.table.get? id' = some handle ↔ id' = id := by
  have hnames := hosting.names
  rw [Registry.names_append, Registry.Names] at hnames
  obtain rfl := hnames.2.1 id handle rfl
  have hnew : Registry.Allocated {} := fun id h hget => absurd hget (by simp)
  refine ⟨_, ?_, Registry.lt_length_begin _ id (Registry.replay before {}).fresh.1,
    fun id' => (hnew.replay before).get?_begin id id' _⟩
  rw [hosting.inbound_eq, Registry.replay_append]
  rfl

/-! ### The close -/

/-- **The close signals work that is not over**, unless a newer request has used its identifier.
Such work is cancelled with the reason that the connection was closed, if it was not cancelled
before. Where a newer request has used the identifier, the close does nothing to the older work: it
has been cancelled after the close only if it had been before. -/
theorem Hosting.signal_close (hosting : Hosting config (before ++ .begun id handle :: after) s)
    (unfinished : .finished id handle ∉ after) (close : Step s .close s') :
    ((∀ newer, .begun id newer ∉ after) →
      s'.inbound.signal handle = (s.inbound.signal handle).fire (some "connection closed")) ∧
    ((∃ newer, .begun id newer ∈ after) →
      s'.inbound.signal handle = s.inbound.signal handle) := by
  obtain ⟨r, hreplay, hlt, hplace⟩ := hosting.begun
  have hlt' : handle.index < s.inbound.signals.all.length := by
    rw [hreplay]
    exact Registry.lt_length_replay hlt after
  have hclose : s'.inbound = (s.inbound.cancelAll (some "connection closed")).2 := close.inbound_eq
  have hregistered : ∀ id', s.inbound.table.get? id' = some handle ↔
      id' = id ∧ ∀ e ∈ after, ¬ e.Takes id' handle := fun id' => by
    rw [hreplay, Registry.get?_replay_eq_some hlt, hplace]
  rw [hclose]
  refine ⟨fun hlatest => ?_, fun ⟨newer, hnewer⟩ => ?_⟩
  · by_cases hends : ∃ e ∈ after, e.Ends id handle
    · -- The signal has fired when the request ended, and keeps the reason.
      have hfired : (s.inbound.signal handle).isFired = true := by
        rw [hreplay]
        exact Registry.isFired_replay_of_ends hlt ((hplace id).2 rfl) hlatest unfinished hends
      rw [Signal.fire_of_isFired hfired]
      refine Registry.signal_cancelAll_of_not_registered hlt' (fun id' hget => ?_) _
      obtain ⟨rfl, hkept⟩ := (hregistered id').1 hget
      obtain ⟨e, he, hends⟩ := hends
      exact hkept e he (.inl hends)
    · refine Registry.signal_cancelAll_of_registered hlt' ((hregistered id).2 ⟨rfl, ?_⟩) _
      rintro e he (hends' | ⟨newer, rfl⟩)
      · exact hends ⟨e, he, hends'⟩
      · exact hlatest newer he
  · refine Registry.signal_cancelAll_of_not_registered hlt' (fun id' hget => ?_) _
    obtain ⟨rfl, hkept⟩ := (hregistered id').1 hget
    exact hkept _ hnewer (.inr ⟨newer, rfl⟩)

/-- Two requests, of which the first is over: the close cancels the work on the second. -/
theorem signal_close_unfinished :
    ∃ events s s', Hosting {} events s ∧ .finished (.number 2) ⟨1⟩ ∉ events ∧ Step s .close s' ∧
      s'.inbound.signal ⟨1⟩ = .fired (some "connection closed") := by
  have hosting : Hosting {}
      ([.begun (.number 1) ⟨0⟩] ++ .begun (.number 2) ⟨1⟩ :: [.finished (.number 1) ⟨0⟩]) _ :=
    ((Hosting.start.step (.beginInbound (.number 1))).step (.beginInbound (.number 2))).step
      (.finishInbound (.number 1) ⟨0⟩)
  refine ⟨_, _, _, hosting, by simp, step_close _, ?_⟩
  rw [(hosting.signal_close (by simp) (step_close _)).1 (by simp)]
  rfl

/-- The peer sends a second request under the identifier of the first. Both works are running when
the connection is closed, and only the second is told. -/
theorem signal_close_displaced :
    ∃ s s', Hosting {} [.begun (.text "dup") ⟨0⟩, .begun (.text "dup") ⟨1⟩] s ∧ Step s .close s' ∧
      s'.inbound.signal ⟨0⟩ = .quiet ∧
      s'.inbound.signal ⟨1⟩ = .fired (some "connection closed") := by
  have hosting : Hosting {} [.begun (.text "dup") ⟨0⟩, .begun (.text "dup") ⟨1⟩] _ :=
    (Hosting.start.step (.beginInbound (.text "dup"))).step (.beginInbound (.text "dup"))
  exact ⟨_, _, hosting, step_close _, rfl, rfl⟩

/-! ### Cancellations that come late -/

/-- **A cancellation that comes after its request has ended finds no work.** The registry stays as
it is, all handles with it. If no own call waits under the same identifier, nothing changes.
If one does, the cancellation is for it: the call is taken off the tables, it is settled as
cancelled for the reason that the peer gives, and its callback comes next. -/
theorem Hosting.late_cancellation (hosting : Hosting config (before ++ .begun id handle :: after) s)
    (ended : ∃ e ∈ after, e.Ends id handle) (latest : ∀ newer, .begun id newer ∉ after)
    (reason : Option String) :
    (∀ n : Notification, n.Tells ⟨id, reason⟩ →
      s.handle (.notification n) = (none, s.cancelled ⟨id, reason⟩)) ∧
    (s.cancelled ⟨id, reason⟩).inbound = s.inbound ∧
    (s.pending.get? id = none → s.cancelled ⟨id, reason⟩ = s) ∧
    (∀ call, s.pending.get? id = some call →
      s.cancelled ⟨id, reason⟩ =
        follow (call.onError (.cancelled reason))
          { s with
            pending := s.pending.erase id
            deadlines := s.deadlines.erase id
            log := s.log ++ [.settled id call (.error (.cancelled reason))] }) := by
  have hnone : s.inbound.table.get? id = none := by
    obtain ⟨r, hreplay, hlt, hplace⟩ := hosting.begun
    rw [hreplay]
    exact Registry.get?_replay_of_ends hlt ((hplace id).2 rfl) latest ended
  have hcancelled : s.cancelled ⟨id, reason⟩ = (s.settle id (.error (.cancelled reason))).2 :=
    cancelled_of_not_registered hnone
  refine ⟨fun n hn => ?_, ?_, fun hp => ?_, fun call hp => ?_⟩
  · exact handle_of_cancellation (Notification.cancellation?_eq_some_iff.2 hn)
  · rw [hcancelled]
    exact (onward_settle s _ _).inbound
  · rw [hcancelled, settle_of_not_pending hp]
  · rw [hcancelled, settle_of_pending hp]
    rfl

/-- The peer cancels its request 1 when that is over, and nothing changes. -/
theorem late_cancellation_unnoticed :
    ∃ s n, Hosting {} [.begun (.number 1) ⟨0⟩, .finished (.number 1) ⟨0⟩] s ∧
      n.Tells ⟨.number 1, some "late"⟩ ∧ s.handle (.notification n) = (none, s) := by
  let n : Notification := ⟨"notifications/cancelled", some (.arr [.int 1, .str "late"])⟩
  have hosting : Hosting {}
      ([] ++ .begun (.number 1) ⟨0⟩ :: [.finished (.number 1) ⟨0⟩]) _ :=
    (Hosting.start.step (.beginInbound (.number 1))).step (.finishInbound (.number 1) ⟨0⟩)
  have htells : n.Tells ⟨.number 1, some "late"⟩ := ⟨rfl, _, rfl, rfl⟩
  obtain ⟨hhandle, -, hidle, -⟩ :=
    hosting.late_cancellation ⟨_, List.mem_singleton_self _, rfl, rfl⟩ (by simp) (some "late")
  refine ⟨_, n, hosting, htells, ?_⟩
  rw [hhandle n htells, hidle rfl]

/-- The peer cancels its request 1 when that is over, and an own call 1 waits: the call fails. -/
theorem late_cancellation_taken :
    ∃ s n, Hosting {} [.begun (.number 1) ⟨0⟩, .finished (.number 1) ⟨0⟩] s ∧
      n.Tells ⟨.number 1, some "late"⟩ ∧ s.pending.contains (.number 1) = true ∧
      (s.handle (.notification n)).2.pending.contains (.number 1) = false ∧
      s.outcome? (.number 1) = none ∧
      (s.handle (.notification n)).2.outcome? (.number 1) =
        some (.error (.cancelled (some "late"))) := by
  let n : Notification := ⟨"notifications/cancelled", some (.arr [.int 1, .str "late"])⟩
  have hosting : Hosting {} [.begun (.number 1) ⟨0⟩, .finished (.number 1) ⟨0⟩] _ :=
    ((Hosting.start.step (.beginInbound (.number 1))).step (.finishInbound (.number 1) ⟨0⟩)).step
      (.issue { spec := { method := "work" } })
  exact ⟨_, n, hosting, ⟨rfl, _, rfl, rfl⟩, rfl, rfl, rfl, rfl⟩

/-! ### The newest request under an identifier -/

/-- A cancellation fires the handle that is registered under its identifier, and no other. -/
theorem signal_cancelled {c : Cancellation}
    (hne : (s.cancelled c).inbound.signal handle ≠ s.inbound.signal handle) :
    s.inbound.table.get? c.id = some handle := by
  rw [inbound_cancelled] at hne
  cases hr : s.inbound.table.get? c.id with
  | none =>
    rw [Registry.cancel_of_not_registered hr] at hne
    exact absurd rfl hne
  | some other =>
    rw [Registry.cancel_of_registered hr] at hne
    by_cases heq : handle = other
    · rw [heq]
    · exact absurd (Signals.get_fire_of_ne _ _ _ _ heq) hne

/-- **An identifier stands for its newest live request.**

* A handle is registered under an identifier exactly if the newest request under this identifier
  has begun with it, and since then its work has not ended, the peer has not cancelled it, and the
  session has not been closed.
* As many requests are registered as there are identifiers with such a request.
* A cancellation, told by whatever notification, fires the handle of the request that its identifier
  stands for, if any. A handle is left alone whose identifier has been used again or whose work is
  over.
* The end of work takes nobody else's registration away. -/
theorem Hosting.stands_for_newest (hosting : Hosting config events s) :
    (∀ id handle, s.inbound.table.get? id = some handle ↔ InboundEvent.Live events id handle) ∧
    (∃ ids : List RequestId, ids.Nodup ∧ s.inbound.count = ids.length ∧
      ∀ id, id ∈ ids ↔ ∃ handle, InboundEvent.Live events id handle) ∧
    (∀ n c, n.Tells c → s.handle (.notification n) = (none, s.cancelled c)) ∧
    (∀ c handle, (s.cancelled c).inbound.signal handle ≠ s.inbound.signal handle →
      InboundEvent.Live events c.id handle) ∧
    (∀ before id handle after, events = before ++ .begun id handle :: after →
      ((∃ newer, .begun id newer ∈ after) ∨ .finished id handle ∈ after) →
        ∀ c, (s.cancelled c).inbound.signal handle = s.inbound.signal handle) ∧
    ∀ id handle id' handle', s.inbound.table.get? id' = some handle' →
      ¬ (id' = id ∧ handle' = handle) →
        (s.finishInbound id handle).inbound.table.get? id' = some handle' := by
  have hnew : Registry.Allocated {} := fun id h hget => absurd hget (by simp)
  have hlive : ∀ id handle,
      s.inbound.table.get? id = some handle ↔ InboundEvent.Live events id handle := by
    intro id handle
    rw [hosting.inbound_eq, Registry.get?_replay_iff_live hnew hosting.names]
    simp
  refine ⟨hlive, ⟨s.inbound.table.keys, s.inbound.table.nodup, ?_, fun id => ?_⟩, ?_, ?_, ?_, ?_⟩
  · rw [Registry.count, Table.size, Table.keys, List.length_map]
  · rw [← Table.contains_iff, Table.contains, Option.isSome_iff_exists]
    exact exists_congr (hlive id)
  · intro n c hn
    exact handle_of_cancellation (Notification.cancellation?_eq_some_iff.2 hn)
  · intro c handle hne
    exact (hlive c.id handle).1 (signal_cancelled hne)
  · rintro before id handle after rfl hover c
    obtain ⟨r, hreplay, hlt, hplace⟩ := hosting.begun
    refine Decidable.byContradiction fun hne => ?_
    have hget := signal_cancelled hne
    -- The handle was never registered under another identifier, and has lost this place.
    rw [hreplay, Registry.get?_replay_eq_some hlt, hplace] at hget
    obtain ⟨rfl, hkept⟩ := hget
    rcases hover with ⟨newer, hnewer⟩ | hfinished
    · exact hkept _ hnewer (.inr ⟨newer, rfl⟩)
    · exact hkept _ hfinished (.inl ⟨rfl, rfl⟩)
  · intro id handle id' handle' hget hother
    rw [finishInbound, Registry.get?_release, if_neg, hget]
    rintro ⟨rfl, hown⟩
    exact hother ⟨rfl, Option.some.inj (hget.symm.trans hown)⟩

/-- The peer uses an identifier again, and the end of the older work is reported late, and twice.
The identifier stands for the newer request, which the peer then cancels. -/
theorem stands_for_newest_reused :
    ∃ events s, Hosting {} events s ∧ s.inbound.table.get? (.text "dup") = some ⟨1⟩ ∧
      s.inbound.count = 1 ∧
      ((s.cancelled ⟨.text "dup", some "stop"⟩).inbound.signal ⟨0⟩ = .quiet) ∧
      (s.cancelled ⟨.text "dup", some "stop"⟩).inbound.signal ⟨1⟩ = .fired (some "stop") := by
  have hosting : Hosting {} ([] ++ .begun (.text "dup") ⟨0⟩ ::
      [.begun (.text "dup") ⟨1⟩, .finished (.text "dup") ⟨0⟩, .finished (.text "dup") ⟨0⟩]) _ :=
    (((Hosting.start.step (.beginInbound (.text "dup"))).step (.beginInbound (.text "dup"))).step
      (.finishInbound (.text "dup") ⟨0⟩)).step (.finishInbound (.text "dup") ⟨0⟩)
  obtain ⟨hlive, -, -, -, hover, -⟩ := hosting.stands_for_newest
  refine ⟨_, _, hosting, (hlive _ _).2 ⟨[_], _, rfl, by simp, ?_⟩, rfl, ?_, rfl⟩
  · rintro e he hends
    rcases List.mem_cons.1 he with rfl | he
    · cases hends.2
    · rw [List.mem_singleton.1 he] at hends
      cases hends.2
  · rw [hover [] (.text "dup") ⟨0⟩ _ rfl (.inr (by simp))]
    rfl

end Session
end Switchboard
