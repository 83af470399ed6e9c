import Switchboard.Proofs.Cancel.Registry
import Switchboard.Proofs.Deadlines.Trace
import Switchboard.Proofs.Message.Cancellation
import Switchboard.Proofs.Session.Run

/-!
# What the operations of a session do to its tables

One lemma for each part of a session that an operation reads or writes. `follow_induction` is the
one induction over follow-ups: whatever every launch of a call and every delivery keeps is kept by a
follow-up, however deep the callbacks of refused calls are nested.
-/

namespace Switchboard

/-! ### Tables -/

namespace PendingCalls

theorem get?_register (p : PendingCalls) (id id' : RequestId) (c : Call) :
    (p.register id c).get? id' = if id' = id then some c else p.get? id' :=
  Table.get?_insert p id id' c

end PendingCalls

/-! ### Launching a call -/

namespace Session

theorem hand_eq (s : Session) (m : Message) :
    s.hand m =
      { s with
        link := s.turn.link
        upcoming := s.turn.upcoming
        log := s.log ++ [s.turn.link.carry m] } := by
  unfold hand turn
  split <;> rfl

/-- The next identifier, and the session with the call waiting under it and its request handed
over. -/
theorem launch_eq (s : Session) (c : Call) :
    s.launch c =
      (s.ids.take.1,
        { s with
          link := s.turn.link
          upcoming := s.turn.upcoming
          ids := s.ids.take.2
          replies := (s.pending.get? s.ids.take.1).elim s.replies fun old => old.drop s.replies
          pending := s.pending.register s.ids.take.1 c
          deadlines := s.deadlines.armAny s.ids.take.1 (s.expiry? c.spec) ()
          log := s.log ++ [.issued s.ids.take.1 c (s.expiry? c.spec),
            s.turn.link.carry (.request (c.spec.request s.ids.take.1))] }) := by
  rcases s with ⟨_, _, _, _ | ⟨link, upcoming⟩, _, _, _, _, _, log⟩ <;>
    simp only [launch, enter, hand_eq, turn, record, List.append_assoc, List.cons_append,
      List.nil_append]

/-- A call is off the tables. -/
def detach (s : Session) (id : RequestId) : Session :=
  { s with pending := s.pending.erase id, deadlines := s.deadlines.erase id }

/-- A call is launched, its request is refused, and the call ends at once. -/
def bounce (s : Session) (c : Call) (reason : String) : Session :=
  ((s.launch c).2.detach (s.launch c).1).conclude (s.launch c).1 c (.error (.transport reason))

theorem withdraw_eq (s : Session) (id : RequestId) :
    s.withdraw id = (s.pending.get? id).map fun c => (c, s.detach id) := by
  simp only [withdraw, PendingCalls.complete, Table.take, Option.map_map]
  rfl

/-- A call that has just been launched is still waiting. -/
theorem withdraw_launch (s : Session) (c : Call) :
    (s.launch c).2.withdraw (s.launch c).1 = some (c, (s.launch c).2.detach (s.launch c).1) := by
  have hw : (s.launch c).2.pending.get? (s.launch c).1 = some c := by
    rw [launch_eq, PendingCalls.get?_register, if_pos rfl]
  rw [withdraw_eq, hw]
  rfl

theorem follow_call_of_accepting {s : Session} {c : Call} {next : Followup}
    (ha : (s.launch c).2.link = .accepting) :
    s.follow (.call c.spec c.onResult c.onError next) = (s.launch c).2.follow next := by
  rw [follow]
  simp only [ha]

theorem follow_call_of_refusing {s : Session} {c : Call} {next : Followup} {reason : String}
    (hr : (s.launch c).2.link = .refusing reason) :
    s.follow (.call c.spec c.onResult c.onError next) =
      ((s.bounce c reason).follow (c.onError (.transport reason))).follow next := by
  rw [follow]
  simp only [hr, withdraw_launch]
  rfl

theorem log_launch_of_accepting {s : Session} {c : Call} (ha : (s.launch c).2.link = .accepting) :
    (s.launch c).2.log = s.log ++ [.issued s.ids.take.1 c (s.expiry? c.spec),
      .sent (.request (c.spec.request s.ids.take.1))] := by
  rw [launch_eq] at ha ⊢
  simp only at ha ⊢
  rw [ha]
  rfl

theorem log_bounce {s : Session} {c : Call} {reason : String}
    (hr : (s.launch c).2.link = .refusing reason) :
    (s.bounce c reason).log = s.log ++ [.issued s.ids.take.1 c (s.expiry? c.spec),
      .refused (.request (c.spec.request s.ids.take.1)) reason,
      .settled s.ids.take.1 c (.error (.transport reason))] := by
  rw [launch_eq] at hr
  simp only at hr
  simp only [bounce, conclude, record, detach, launch_eq, hr, Link.carry, List.append_assoc,
    List.cons_append, List.nil_append]

/-- **What every launch of a call and every delivery keeps, a follow-up keeps.** The calls of a
follow-up are launched one after another; where one is refused, the follow-up of its error comes in
between. -/
theorem follow_induction {P : Session → Prop}
    (delivered : ∀ s channel outcome, P s → P (s.deliver channel outcome))
    (sent : ∀ s c, P s → (s.launch c).2.link = .accepting → P (s.launch c).2)
    (refused : ∀ s c reason, P s → (s.launch c).2.link = .refusing reason → P (s.bounce c reason))
    (f : Followup) (s : Session) (hs : P s) : P (s.follow f) := by
  induction f generalizing s with
  | done => exact hs
  | deliver channel outcome => exact delivered s channel outcome hs
  | call spec onResult onError next _ ihError ihNext =>
    let c : Call := ⟨spec, onResult, onError⟩
    cases hl : (s.launch c).2.link with
    | accepting =>
      rw [follow_call_of_accepting (c := c) hl]
      exact ihNext _ (sent s c hs hl)
    | refusing reason =>
      rw [follow_call_of_refusing (c := c) hl]
      exact ihNext _ (ihError _ _ (refused s c reason hs hl))

section

variable {s : Session} {id : RequestId} {c : Call}

/-! ### Settling a call -/

theorem settle_of_pending (hp : s.pending.get? id = some c) (outcome : CallOutcome) :
    s.settle id outcome =
      (true, ((s.detach id).conclude id c outcome).follow (c.resolve outcome)) := by
  rw [settle, withdraw_eq, hp]
  rfl

theorem settle_of_not_pending (hp : s.pending.get? id = none) (outcome : CallOutcome) :
    s.settle id outcome = (false, s) := by
  rw [settle, withdraw_eq, hp]
  rfl

theorem abort_of_pending (hp : s.pending.get? id = some c) (error : CallError)
    (reason : Option String) :
    s.abort id error reason =
      (true, (((s.detach id).conclude id c (.error error)).follow
        (c.resolve (.error error))).hand (Cancellation.toMessage ⟨id, reason⟩)) := by
  rw [abort, settle_of_pending hp]

theorem abort_of_not_pending (hp : s.pending.get? id = none) (error : CallError)
    (reason : Option String) : s.abort id error reason = (false, s) := by
  rw [abort, settle_of_not_pending hp]

/-! ### Cancellations by the peer -/

theorem cancelled_of_registered {cancel : Cancellation} {handle : Handle}
    (hr : s.inbound.table.get? cancel.id = some handle) :
    s.cancelled cancel = { s with inbound := (s.inbound.cancel cancel.id cancel.reason).2 } := by
  simp only [cancelled, Registry.cancel_of_registered hr]

theorem cancelled_of_not_registered {cancel : Cancellation}
    (hr : s.inbound.table.get? cancel.id = none) :
    s.cancelled cancel = (s.settle cancel.id (.error (.cancelled cancel.reason))).2 := by
  simp only [cancelled, Registry.cancel_of_not_registered hr]

theorem handle_of_cancellation {n : Notification} {cancel : Cancellation}
    (hn : n.cancellation? = some cancel) :
    s.handle (.notification n) = (none, s.cancelled cancel) := by
  simp only [handle, hn]

theorem handle_of_not_cancellation {n : Notification} (hn : n.cancellation? = none) :
    s.handle (.notification n) = (some (.notification n), s) := by
  simp only [handle, hn]

end

/-! ### What all operations on calls have in common -/

/-- What issuing and settling calls records: a call that is issued gets its deadline from the
present instant, and every message that is handed over is about a call. -/
def Records (s : Session) : Event → Prop
  | .issued _ c expiry => expiry = s.expiry? c.spec
  | .sent m | .refused m _ => m.subject? ≠ none
  | .settled _ _ _ | .delivered _ _ => True

theorem Records.congr {s s' : Session} {e : Event} (hconfig : s'.config = s.config)
    (hclock : s'.clock = s.clock) (he : Records s' e) : Records s e := by
  cases e with
  | issued id c expiry =>
    rw [Records, expiry?, hconfig, hclock] at he
    exact he
  | sent m => exact he
  | refused m reason => exact he
  | settled id c outcome => exact he
  | delivered channel outcome => exact he

theorem records_carry (s : Session) (l : Link) {m : Message} (hm : m.subject? ≠ none) :
    Records s (l.carry m) := by
  cases l <;> exact hm

/-- What issuing and settling calls leaves as it is, and what is recorded meanwhile. -/
structure Onward (s s' : Session) : Prop where
  config : s'.config = s.config
  clock : s'.clock = s.clock
  inbound : s'.inbound = s.inbound
  log : ∃ events, s'.log = s.log ++ events ∧ ∀ e ∈ events, Records s e

theorem Onward.refl (s : Session) : Onward s s :=
  ⟨rfl, rfl, rfl, [], (List.append_nil _).symm, nofun⟩

theorem Onward.trans {s s' s'' : Session} (ho : Onward s s') (ho' : Onward s' s'') :
    Onward s s'' := by
  obtain ⟨events, hlog, hrec⟩ := ho.log
  obtain ⟨events', hlog', hrec'⟩ := ho'.log
  refine ⟨ho'.config.trans ho.config, ho'.clock.trans ho.clock, ho'.inbound.trans ho.inbound,
    events ++ events', by rw [hlog', hlog, List.append_assoc], fun e he => ?_⟩
  rcases List.mem_append.1 he with he | he
  · exact hrec e he
  · exact (hrec' e he).congr ho.config ho.clock

/-- An event is recorded. -/
theorem Onward.of_event {s s' : Session} {e : Event} (hconfig : s'.config = s.config)
    (hclock : s'.clock = s.clock) (hinbound : s'.inbound = s.inbound)
    (hlog : s'.log = s.log ++ [e]) (he : Records s e) : Onward s s' :=
  ⟨hconfig, hclock, hinbound, [e], hlog, fun _ he' => List.mem_singleton.1 he' ▸ he⟩

theorem onward_tables (s : Session) (pending : PendingCalls) (deadlines : Deadlines Unit) :
    Onward s { s with pending, deadlines } :=
  ⟨rfl, rfl, rfl, [], (List.append_nil _).symm, nofun⟩

theorem onward_hand (s : Session) {m : Message} (hm : m.subject? ≠ none) :
    Onward s (s.hand m) := by
  rw [hand_eq]
  exact .of_event rfl rfl rfl rfl (records_carry s _ hm)

theorem onward_notify (s : Session) (c : Cancellation) : Onward s (s.hand c.toMessage) :=
  onward_hand s (by simp)

theorem onward_conclude (s : Session) (id : RequestId) (c : Call) (outcome : CallOutcome) :
    Onward s (s.conclude id c outcome) :=
  .of_event rfl rfl rfl rfl trivial

theorem onward_launch (s : Session) (c : Call) : Onward s (s.launch c).2 := by
  rw [launch_eq]
  refine ⟨rfl, rfl, rfl, _, rfl, fun e he => ?_⟩
  rw [List.mem_cons, List.mem_singleton] at he
  rcases he with rfl | rfl
  · rfl
  · exact records_carry s _ (Option.some_ne_none _)

theorem onward_bounce (s : Session) (c : Call) (reason : String) : Onward s (s.bounce c reason) :=
  (onward_launch s c).trans ((onward_tables _ _ _).trans (onward_conclude _ _ _ _))

theorem onward_deliver (s : Session) (channel : Channel) (outcome : CallOutcome) :
    Onward s (s.deliver channel outcome) :=
  .of_event rfl rfl rfl rfl trivial

theorem onward_follow (f : Followup) (s : Session) : Onward s (s.follow f) :=
  follow_induction (P := Onward s)
    (fun s' channel outcome ho => ho.trans (onward_deliver s' channel outcome))
    (fun s' c ho _ => ho.trans (onward_launch s' c))
    (fun s' c reason ho _ => ho.trans (onward_bounce s' c reason)) f s (.refl s)

theorem onward_call (s : Session) (spec : CallSpec) : Onward s (s.call spec).2.2 := by
  have hfresh : Onward s { s with replies := s.replies.fresh.2 } :=
    ⟨rfl, rfl, rfl, [], (List.append_nil _).symm, nofun⟩
  exact hfresh.trans (onward_follow _ _)

theorem onward_settle (s : Session) (id : RequestId) (outcome : CallOutcome) :
    Onward s (s.settle id outcome).2 := by
  cases hp : s.pending.get? id with
  | none =>
    rw [settle_of_not_pending hp]
    exact .refl s
  | some c =>
    rw [settle_of_pending hp]
    exact (onward_tables s _ _).trans ((onward_conclude _ _ _ _).trans (onward_follow _ _))

theorem onward_abort (s : Session) (id : RequestId) (error : CallError) (reason : Option String) :
    Onward s (s.abort id error reason).2 := by
  have hs := onward_settle s id (.error error)
  rw [abort]
  split <;> rename_i he <;> rw [he] at hs
  · exact hs.trans (onward_notify _ _)
  · exact hs

theorem onward_expire (s : Session) (id : RequestId) : Onward s (s.expire id) :=
  onward_abort s id _ _

theorem onward_disconnect (s : Session) (entry : RequestId × Call) :
    Onward s (s.disconnect entry) :=
  (onward_tables s s.pending _).trans ((onward_conclude _ _ _ _).trans (onward_follow _ _))

theorem onward_foldl {α : Type} {f : Session → α → Session} (hf : ∀ s a, Onward s (f s a))
    (order : List α) (s : Session) : Onward s (order.foldl f s) := by
  induction order generalizing s with
  | nil => exact .refl s
  | cons a order ih => exact (hf s a).trans (ih _)

theorem onward_expireAll (s : Session) (order : List RequestId) : Onward s (s.expireAll order) :=
  (onward_tables s s.pending _).trans (onward_foldl onward_expire order _)

theorem onward_disconnectAll (s : Session) (order : List (RequestId × Call)) :
    Onward s (s.disconnectAll order) :=
  (onward_tables s .empty s.deadlines).trans (onward_foldl onward_disconnect order _)

end Session
end Switchboard
