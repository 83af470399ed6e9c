import Switchboard.Proofs.Message.Cancellation
import Switchboard.Proofs.Session.Lifecycle

/-!
# Settling calls

Every way to end a call comes down to `tell_leads`: a call that has ended is taken off the tables,
its callback runs, and no other view changes, up to the calls that the callback issues. A call that
ends by its deadline or on this side is then also cancelled at the peer (`abort_leads`). A sweep and
the close settle several calls that have ended already; `foldl_leads` carries those that are still
owed their callback through the callbacks of the others.
-/

namespace Switchboard

open History (issued issue? ending?)

/-- A call has ended and its callback has run; the peer has not been told. -/
def View.told (id : RequestId) (c : Call) (expiry : Option Nat) (e : Ending) : View :=
  ⟨some (c, expiry), some e, [(c, e.outcome)], [c.spec.sent id], none, none⟩

namespace Session

variable {h : List Moment} {s s₁ s' : Session} {id : RequestId} {c : Call} {expiry : Option Nat}
  {e : Ending}

/-! ### One call -/

/-- The second session is the first one with the call under an identifier off the tables. -/
structure Detached (s s₁ : Session) (id : RequestId) : Prop where
  log : s₁.log = s.log
  ids : s₁.ids = s.ids
  pending : ∀ id', s₁.pending.get? id' = if id' = id then none else s.pending.get? id'
  deadlines : ∀ id', s₁.deadlines.get? id' = if id' = id then none else s.deadlines.get? id'

theorem detached_detach (s : Session) (id : RequestId) : Detached s (s.detach id) id :=
  ⟨rfl, rfl, Table.get?_erase _ _, Table.get?_erase _ _⟩

/-- What is known after something was done about one call: the count goes on, all other views are
kept, and the call's own view is as said. -/
structure Touched (id : RequestId) (P : View → Prop) (h : List Moment) (s s' : Session)
    (h' : List Moment) : Prop where
  counted : Counted h' s'
  others : ∀ id', id' ≠ id → Keeps h s h' s' id'
  own : P (view h' s' id)

/-- Something is recorded about a call, and no call is issued. -/
theorem touched_of_event {event : Event} {P : View → Prop} (hc : Counted h s)
    (hi : issued [.event event] = []) (hsub : event.subject? = some id)
    (hlog : s'.log = s.log ++ [event]) (hids : s'.ids = s.ids)
    (hother : ∀ id', id' ≠ id → s'.pending.get? id' = s.pending.get? id' ∧
      s'.deadlines.get? id' = s.deadlines.get? id')
    (hself : P (view (h ++ [event].map .event) s' id)) : Leads h s s' (Touched id P h s s') := by
  have hn : issued (h ++ [event].map .event) = issued h := by
    rw [History.issued_append, List.map_singleton, hi, List.append_nil]
  refine ⟨[event], hlog, fun _ => ⟨⟨?_, ?_⟩, fun id' hid => ?_, hself⟩⟩
  · rw [hn]
    exact hc.issued
  · rw [hn, hids]
    exact hc.next
  · refine Keeps.of_eq (view_append_of_other hlog (fun e he hs => ?_) (hother id' hid).1
      (hother id' hid).2)
    rw [List.mem_singleton.1 he, hsub] at hs
    exact hid (Option.some.inj hs).symm

theorem conclude_leads (hc : Counted h s) (hd : Detached s s₁ id) {p : Option Call}
    {x : Option Nat}
    (hv : view h s id = ⟨some (c, expiry), some e, [], [c.spec.sent id], p, x⟩) :
    Leads h s (s₁.conclude id c e.outcome)
      (Touched id (· = .told id c expiry e) h s (s₁.conclude id c e.outcome)) := by
  have hlog : (s₁.conclude id c e.outcome).log = s.log ++ [.settled id c e.outcome] := by
    rw [conclude, record, hd.log]
  refine touched_of_event hc rfl rfl hlog hd.ids (fun id' hid => ?_) ?_
  · exact ⟨(hd.pending id').trans (if_neg hid), (hd.deadlines id').trans (if_neg hid)⟩
  · rw [view_append_of_ended hv hlog, conclude, record, hd.pending, hd.deadlines, if_pos rfl,
      if_pos rfl]
    simp [View.told, Event.settlement?, Event.carries]

/-- **The callback of a call that has ended runs once.** Whatever calls it issues, no other view
changes. -/
theorem tell_leads (hc : Counted h s) (hd : Detached s s₁ id) {p : Option Call} {x : Option Nat}
    (hv : view h s id = ⟨some (c, expiry), some e, [], [c.spec.sent id], p, x⟩) :
    Leads h s ((s₁.conclude id c e.outcome).follow (c.resolve e.outcome))
      (Touched id (· = .told id c expiry e) h s
        ((s₁.conclude id c e.outcome).follow (c.resolve e.outcome))) := by
  refine (conclude_leads hc hd hv).trans (onward_follow _ _) fun h' t =>
    (follow_leads t.counted (c.resolve e.outcome)).mono fun h'' k => ?_
  refine ⟨k.1, fun id' hne => (t.others id' hne).trans (k.2 id'), ?_⟩
  have hi : issue? id h' = some (c, expiry) := congrArg View.issue? t.own
  rw [(k.2 id).same (by simp [hi]), t.own]

/-- The peer is told that a call has ended. -/
theorem notify_leads (hc : Counted h s) (hv : view h s id = .told id c expiry e)
    {reason : Option String} (hn : e.notice? = some reason) :
    Leads h s (s.hand (Cancellation.toMessage ⟨id, reason⟩))
      (Touched id (View.Sound id) h s (s.hand (Cancellation.toMessage ⟨id, reason⟩))) := by
  have hsub : (s.turn.link.carry (Cancellation.toMessage ⟨id, reason⟩)).subject? = some id := by
    simp
  have hcar : (s.turn.link.carry (Cancellation.toMessage ⟨id, reason⟩)).carries id = true := by
    cases s.turn.link <;> simp [Link.carry, Event.carries]
  have hset : (s.turn.link.carry (Cancellation.toMessage ⟨id, reason⟩)).settlement? id = none := by
    cases s.turn.link <;> rfl
  have hp : s.pending.get? id = none := congrArg View.pending? hv
  have hx : (s.deadlines.get? id).map Deadline.expiry = none := congrArg View.expiry? hv
  rw [hand_eq]
  refine touched_of_event hc (by cases s.turn.link <;> rfl) hsub rfl rfl (fun _ _ => ⟨rfl, rfl⟩) ?_
  rw [view_append_of_ended hv rfl]
  simp only [hp, hx, hset, hcar, List.filterMap_cons_none, List.filterMap_nil, List.append_nil,
    List.filter_cons_of_pos, List.filter_nil, List.cons_append, List.nil_append]
  refine .ended c expiry e ?_
  cases e with
  | cancelled | expired => exact ⟨s.turn.link, by rw [← Option.some.inj hn]⟩
  | refused | answered | withdrawn | disconnected => exact absurd hn (by simp [Ending.notice?])

/-! ### Several calls in turn -/

/-- Between two operations the count is right and every view is sound. -/
structure Sound (h : List Moment) (s : Session) : Prop where
  counted : Counted h s
  views : ∀ id, (view h s id).Sound id

/-- **Calls that have ended are settled in turn.** Settling one of them leaves the others as they
are, so each is settled once, and no other call is. -/
theorem foldl_leads {α : Type} {f : Session → α → Session} {key : α → RequestId}
    {owed : α → View → Prop} (hissued : ∀ a v, owed a v → v.issue? ≠ none)
    (hon : ∀ s a, Onward s (f s a))
    (hstep : ∀ h s a, Counted h s → owed a (view h s (key a)) →
      Leads h s (f s a) (Touched (key a) (View.Sound (key a)) h s (f s a)))
    (order : List α) (h : List Moment) (s : Session) (hnd : (order.map key).Nodup)
    (hc : Counted h s) (howed : ∀ a ∈ order, owed a (view h s (key a)))
    (hrest : ∀ id ∉ order.map key, (view h s id).Sound id) :
    Leads h s (order.foldl f s) (Sound · (order.foldl f s)) := by
  induction order generalizing h s with
  | nil => exact .refl ⟨hc, fun id => hrest id (by simp)⟩
  | cons a order ih =>
    rw [List.map_cons, List.nodup_cons] at hnd
    refine (hstep h s a hc (howed a (by simp))).trans (onward_foldl hon order _) fun h' t =>
      ih h' (f s a) hnd.2 t.counted (fun b hb => ?_) fun id hid => ?_
    · have hb' := howed b (List.mem_cons_of_mem a hb)
      have hne : key b ≠ key a := fun he => hnd.1 (he ▸ List.mem_map_of_mem hb)
      rw [(t.others _ hne).same (hissued b _ hb')]
      exact hb'
    · by_cases he : id = key a
      · exact he ▸ t.own
      · exact (t.others id he).sound (hrest id (by simp [he, hid]))

theorem abort_leads (hc : Counted h s) {x : Option Nat} {error : CallError}
    {reason : Option String}
    (hv : view h s id = ⟨some (c, expiry), some e, [], [c.spec.sent id], some c, x⟩)
    (he : e.outcome = .error error) (hn : e.notice? = some reason) :
    Leads h s (s.abort id error reason).2
      (Touched id (View.Sound id) h s (s.abort id error reason).2) := by
  have hp : s.pending.get? id = some c := congrArg View.pending? hv
  have ht := tell_leads hc (detached_detach s id) hv
  rw [he] at ht
  rw [abort_of_pending hp]
  refine ht.trans (onward_notify _ _) fun h' t => (notify_leads t.counted t.own hn).mono
    fun h'' t' => ⟨t'.counted, fun id' hne => (t.others id' hne).trans (t'.others id' hne), t'.own⟩

theorem disconnect_leads (hc : Counted h s) {x : Option Nat}
    (hv : view h s id =
      ⟨some (c, expiry), some .disconnected, [], [c.spec.sent id], none, x⟩) :
    Leads h s (s.disconnect (id, c)) (Touched id (View.Sound id) h s (s.disconnect (id, c))) := by
  have hp : s.pending.get? id = none := congrArg View.pending? hv
  have hd : Detached s { s with deadlines := s.deadlines.erase id } id := by
    refine ⟨rfl, rfl, fun id' => ?_, Table.get?_erase _ _⟩
    split
    · rename_i he
      rw [he]
      exact hp
    · rfl
  refine (tell_leads hc hd hv).mono fun h' t => ⟨t.counted, t.others, ?_⟩
  have hv' : view h' (s.disconnect (id, c)) id = .told id c expiry .disconnected := t.own
  rw [hv']
  exact .ended c expiry _ rfl

end Session
end Switchboard
