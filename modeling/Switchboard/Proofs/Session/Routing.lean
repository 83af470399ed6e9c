import Switchboard.Proofs.Session.Inbound
import Switchboard.Proofs.Session.Soundness

/-!
# Who reacts to a message of the peer

Own calls and requests of the peer use the same identifiers, and a cancellation does not say whose
it means. Still one owner at most reacts to a message: the work that is registered under the
identifier, or else the own call that waits under it. A message without an owner is handed back or
dropped, and everything that is not the owner's stays as it is.

`Reached` are the sessions that this is said of. Whoever holds a handle may fire it at any time, so
work may be registered whose signal has fired.

What a call leads to includes its callback, which may issue calls. `Sound.handle_others` says that
these do not touch any other call that was issued before.
-/

namespace Switchboard

open History (issued issue? ending?)

/-- A registry after the work that a handle serves has been cancelled: its signal has fired, unless
it had before, and its request is forgotten. -/
structure Registry.Cancelled (r r' : Registry) (id : RequestId) (handle : Handle)
    (reason : Option String) : Prop where
  own : r'.signal handle = (r.signal handle).fire reason
  others : ∀ other, other ≠ handle → r'.signal other = r.signal other
  table : ∀ id', r'.table.get? id' = if id' = id then none else r.table.get? id'

theorem Registry.Allocated.cancelled {r : Registry} (hr : r.Allocated) {id : RequestId}
    {handle : Handle} (hget : r.table.get? id = some handle) (reason : Option String) :
    r.Cancelled (r.cancel id reason).2 id handle reason := by
  have htable := r.get?_cancel id reason
  rw [cancel_of_registered hget] at htable ⊢
  exact
    { own := Signals.get_fire_self _ _ _ (hr id handle hget)
      others := fun other hne => Signals.get_fire_of_ne _ _ _ _ hne
      table := htable }

namespace Session

variable {config : SessionConfig} {h : List Moment} {s s' : Session} {id : RequestId} {e : Ending}
  {m : Moment}

/-! ### Sessions that there can be -/

/-- The sessions that there can be, each with its history: any actions one after another, and in
between somebody who holds a handle may fire it. -/
inductive Reached (config : SessionConfig) : List Moment → Session → Prop
  | start : Reached config [] { config }
  | step {h : List Moment} {s s' : Session} {a : Action} (reached : Reached config h s)
      (step : Step s a s') :
      Reached config (h ++ s.stimuli a ++ (s'.log.drop s.log.length).map .event) s'
  | fire {h : List Moment} {s : Session} (reached : Reached config h s) (handle : Handle)
      (reason : Option String) :
      Reached config h { s with inbound := s.inbound.fire handle reason }

theorem Reached.sound (reached : Reached config h s) (few : Few h) : Sound h s := by
  induction reached with
  | start => exact sound_new config
  | @step h s s' a reached step ih =>
    obtain ⟨events, hlog, hQ⟩ := step.leads (ih few.of_append.of_append)
    rw [hlog, List.drop_left] at few ⊢
    exact hQ few
  | fire reached handle reason ih => exact (ih few).congr rfl rfl rfl rfl

theorem Reached.allocated (reached : Reached config h s) : s.inbound.Allocated := by
  induction reached with
  | start =>
    intro id handle hget
    exact absurd hget (by simp)
  | step reached step ih =>
    rw [step.inbound_eq]
    exact ih.replay _
  | fire reached handle reason ih => exact ih.fire handle reason

/-! ### Calls that a message is not about -/

/-- Settling a call leaves the other calls as they are, whatever calls its callback issues. -/
theorem Sound.settle_others (hs : Sound h s) (hm : m.Ends id e) :
    Leads (h ++ [m]) s (s.settle id e.outcome).2 fun h' =>
      ∀ id', issue? id' h ≠ none → id' ≠ id →
        view h' (s.settle id e.outcome).2 id' = view h s id' := by
  have hstill : ∀ id', id' ≠ id → view (h ++ [m]) s id' = view h s id' := fun id' hid =>
    view_append_of_not_ending (hm.issue id') (hm.others id' hid)
  cases hp : s.pending.get? id with
  | none =>
    rw [settle_of_not_pending hp]
    exact .refl fun id' _ hid => hstill id' hid
  | some c =>
    obtain ⟨expiry, hv⟩ := view_of_pending (hs.views id) hp
    have hv' := view_append_of_waiting (hm.issue id) hv
    rw [hm.own] at hv'
    rw [settle_of_pending hp]
    refine (tell_leads (hs.counted.append hm.issue) (detached_detach s id) hv').mono ?_
    intro h' t id' hi hid
    have hi' : issue? id' (h ++ [m]) ≠ none := by
      rw [History.issue?_append]
      exact fun hn => hi (Option.or_eq_none_iff.1 hn).1
    rw [(t.others id' hid).same hi', hstill id' hid]

/-- **A message leaves the calls as they are that it is not about.** -/
theorem Sound.handle_others (hs : Sound h s) (msg : Message) :
    Leads (h ++ s.stimuli (.handle msg)) s (s.handle msg).2 fun h' =>
      ∀ id, issue? id h ≠ none → msg.subject? ≠ some id →
        view h' (s.handle msg).2 id = view h s id := by
  cases msg with
  | request r =>
    rw [stimuli, List.append_nil]
    exact .refl fun id _ _ => rfl
  | response r =>
    have hset := hs.settle_others (Moment.ends_answered r)
    rw [← respond_eq] at hset
    exact hset.mono fun h' hv id hi hne => hv id hi fun he => hne (congrArg some he.symm)
  | notification n =>
    cases hn : n.cancellation? with
    | none =>
      simp only [stimuli, handle_of_not_cancellation hn, hn, Option.elim_none, List.append_nil]
      exact .refl fun id _ _ => rfl
    | some c =>
      have hsub : (Message.notification n).subject? = some c.id := by rw [Message.subject?, hn]; rfl
      simp only [stimuli, handle_of_cancellation hn, hn, Option.elim_some, hsub]
      cases hr : s.inbound.table.get? c.id with
      | some handle =>
        rw [withdrawal_of_registered hr, cancelled_of_registered hr, List.append_nil]
        exact .of_log_eq rfl fun id _ _ => rfl
      | none =>
        rw [withdrawal_of_not_registered hr, cancelled_of_not_registered hr]
        exact (hs.settle_others (Moment.ends_withdrawn c)).mono fun h' hv id hi hne =>
          hv id hi fun he => hne (congrArg some he.symm)

/-! ### Owners -/

/-- **One owner at most reacts to a message**, and everything else stays as it is.

* Requests are handed back, and so are notifications that tell no cancellation.
* A cancellation is for the work that is registered under its identifier: its signal fires, its
  request is forgotten, and nothing else changes, whether a call waits under this identifier or not.
* If there is no such work, the cancellation is for the call that waits: it is taken off the tables,
  and its callback runs. Nothing is sent, and no handle changes.
* If there is no such call either, nothing changes.
* An answer is for the call that waits under its identifier. No handle changes.

The callback of a call may issue calls. All other calls that were issued before stay as they are. -/
theorem Reached.one_owner (reached : Reached config h s) :
    (∀ r, s.handle (.request r) = (some (.request r), s)) ∧
    (∀ n, (∀ c, ¬ n.Tells c) → s.handle (.notification n) = (some (.notification n), s)) ∧
    (∀ n c, n.Tells c → (s.handle (.notification n)).1 = none ∧
      (∀ handle, s.inbound.table.get? c.id = some handle →
        ∃ inbound, (s.handle (.notification n)).2 = { s with inbound } ∧
          s.inbound.Cancelled inbound c.id handle c.reason) ∧
      (s.inbound.table.get? c.id = none →
        (s.handle (.notification n)).2.inbound = s.inbound ∧
        (∀ call, s.pending.get? c.id = some call →
          (s.handle (.notification n)).2 =
            ((s.detach c.id).conclude c.id call (.error (.cancelled c.reason))).follow
              (call.onError (.cancelled c.reason))) ∧
        (s.pending.get? c.id = none → (s.handle (.notification n)).2 = s))) ∧
    (∀ r, (s.handle (.response r)).1 = none ∧
      (s.handle (.response r)).2.inbound = s.inbound ∧
      (∀ call, s.pending.get? r.id = some call →
        (s.handle (.response r)).2 =
          ((s.detach r.id).conclude r.id call (Ending.answered r.outcome).outcome).follow
            (call.resolve (Ending.answered r.outcome).outcome)) ∧
      (s.pending.get? r.id = none → (s.handle (.response r)).2 = s)) ∧
    ∀ msg, let s' := (s.handle msg).2
      let h' := h ++ s.stimuli (.handle msg) ++ (s'.log.drop s.log.length).map .event
      Few h' → ∀ id, issue? id h ≠ none → msg.subject? ≠ some id → view h' s' id = view h s id := by
  refine ⟨fun r => rfl, fun n hn => ?_, fun n c hn => ?_, fun r => ?_, fun msg => ?_⟩
  · exact handle_of_not_cancellation (Notification.cancellation?_eq_none hn)
  · rw [handle_of_cancellation (Notification.cancellation?_eq_some_iff.2 hn)]
    refine ⟨rfl, fun handle hr => ?_, fun hr => ?_⟩
    · exact ⟨_, cancelled_of_registered hr, reached.allocated.cancelled hr c.reason⟩
    · simp only [cancelled_of_not_registered hr]
      refine ⟨(onward_settle s _ _).inbound, fun call hp => ?_, fun hp => ?_⟩
      · rw [settle_of_pending hp]
        rfl
      · rw [settle_of_not_pending hp]
  · refine ⟨rfl, inbound_respond s r, fun call hp => ?_, fun hp => ?_⟩
    · rw [handle, respond_eq, settle_of_pending hp]
    · rw [handle, respond_eq, settle_of_not_pending hp]
  · intro s' h' few
    obtain ⟨events, hlog, hQ⟩ := (reached.sound few.of_append.of_append).handle_others msg
    have he : s'.log.drop s.log.length = events := by rw [hlog, List.drop_left]
    have hh : h' = h ++ s.stimuli (.handle msg) ++ events.map .event := by rw [← he]
    rw [hh] at few ⊢
    exact hQ few

/-- The peer cancels its request 1, whose handle has fired before, while an own call 1 waits. -/
theorem one_owner_same_identifier :
    ∃ h s n c handle, Reached {} h s ∧ n.Tells c ∧
      s.inbound.table.get? c.id = some handle ∧ s.pending.contains c.id = true ∧
      ∃ inbound, (s.handle (.notification n)).2 = { s with inbound } ∧
        inbound.signal handle = .fired (some "enough") ∧ inbound.table.get? c.id = none := by
  let n : Notification :=
    ⟨"notifications/cancelled", some (.arr [.int 1, .str "peer gave up"])⟩
  have reached : Reached {} _ _ :=
    ((Reached.start.step (.beginInbound (.number 1))).step
      (.issue { spec := { method := "ping" } })).fire ⟨0⟩ (some "enough")
  have htells : n.Tells ⟨.number 1, some "peer gave up"⟩ := ⟨rfl, _, rfl, rfl⟩
  obtain ⟨-, howned, -⟩ := reached.one_owner.2.2.1 n _ htells
  obtain ⟨inbound, heq, hown, -, htable⟩ := howned ⟨0⟩ rfl
  refine ⟨_, _, n, _, ⟨0⟩, reached, htells, rfl, rfl, inbound, heq, hown, ?_⟩
  rw [htable, if_pos rfl]

end Session
end Switchboard
