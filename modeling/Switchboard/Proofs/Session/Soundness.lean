import Switchboard.Proofs.Session.Settling

/-!
# Every run of a session is sound

`Step.leads` says that an action keeps a session sound, one case for each action; `Run.sound`
follows by induction over the run. What an action does to the tables is in the lemmas before it: a
stimulus ends at most one call (`Sound.settle`, `Sound.abort`), or all that are overdue
(`Sound.expireAll`), or all that wait (`Sound.disconnectAll`).
-/

namespace Switchboard

open History (issued issue? ending?)

/-- A moment ends the call under one identifier, if it waits, and no other call. -/
structure Moment.Ends (m : Moment) (id : RequestId) (e : Ending) : Prop where
  own : ∀ expiry, m.ending? id expiry = some e
  others : ∀ id', id' ≠ id → ∀ expiry, m.ending? id' expiry = none
  issue : ∀ id', m.issue? id' = none

theorem Moment.ends_answered (r : Response) : (answered r).Ends r.id (.answered r.outcome) :=
  ⟨fun _ => if_pos rfl, fun _ hne _ => if_neg (Ne.symm hne), fun _ => rfl⟩

theorem Moment.ends_withdrawn (c : Cancellation) : (withdrawn c).Ends c.id (.withdrawn c.reason) :=
  ⟨fun _ => if_pos rfl, fun _ hne _ => if_neg (Ne.symm hne), fun _ => rfl⟩

theorem Moment.ends_cancelled (id : RequestId) (reason : Option String) :
    (cancelled id reason).Ends id (.cancelled reason) :=
  ⟨fun _ => if_pos rfl, fun _ hne _ => if_neg (Ne.symm hne), fun _ => rfl⟩

namespace Session

variable {h : List Moment} {s s' : Session} {id : RequestId} {e : Ending} {m : Moment}

/-! ### Stimuli -/

/-- A moment that issues no call leaves the count as it is. -/
theorem Counted.append (hc : Counted h s) (hm : ∀ id, m.issue? id = none) :
    Counted (h ++ [m]) s := by
  have hm' : History.issued [m] = [] := by
    rw [List.eq_nil_iff_forall_not_mem]
    exact fun id hid => History.mem_issued.1 hid (by simp [issue?, hm])
  have hn : History.issued (h ++ [m]) = History.issued h := by
    rw [History.issued_append, hm', List.append_nil]
  exact ⟨by rw [hn]; exact hc.issued, by rw [hn]; exact hc.next⟩

theorem Counted.congr (hc : Counted h s) (hids : s'.ids = s.ids) : Counted h s' :=
  ⟨hc.issued, hids.trans hc.next⟩

/-- A moment that does not end a call leaves its view as it is. -/
theorem view_append_of_not_ending (hi : m.issue? id = none)
    (he : ∀ expiry, m.ending? id expiry = none) : view (h ++ [m]) s id = view h s id := by
  rw [view_append_stimulus hi]
  cases hh : issue? id h with
  | none => simp [view, hh, History.ending?_eq_none hh]
  | some issue => simp [view, hh, he]

/-- A moment that ends a waiting call shows in its view. -/
theorem view_append_of_waiting {c : Call} {expiry : Option Nat} (hi : m.issue? id = none)
    (hv : view h s id = ⟨some (c, expiry), none, [], [c.spec.sent id], some c, expiry⟩) :
    view (h ++ [m]) s id =
      ⟨some (c, expiry), m.ending? id expiry, [], [c.spec.sent id], some c, expiry⟩ := by
  have hi' : issue? id h = some (c, expiry) := congrArg View.issue? hv
  have he' : ending? id h = none := congrArg View.ending? hv
  rw [view_append_stimulus hi, hv, hi', he']
  rfl

/-- A stimulus for a call that does not wait changes nothing. -/
theorem Sound.append_of_not_pending (hs : Sound h s) (hm : m.Ends id e)
    (hp : s.pending.get? id = none) : Sound (h ++ [m]) s := by
  refine ⟨hs.counted.append hm.issue, fun id' => ?_⟩
  have hv : view (h ++ [m]) s id' = view h s id' := by
    by_cases hid : id' = id
    · exact view_append_stimulus_of_not_waiting (hm.issue id') (hs.views id') (hid ▸ hp)
    · exact view_append_of_not_ending (hm.issue id') (hm.others id' hid)
  rw [hv]
  exact hs.views id'

/-- What was done about the call that a stimulus ended leaves the session sound. -/
theorem Sound.of_touched {h' : List Moment} (hs : Sound h s) (hm : m.Ends id e)
    (t : Touched id (View.Sound id) (h ++ [m]) s s' h') : Sound h' s' := by
  refine ⟨t.counted, fun id' => ?_⟩
  by_cases hid : id' = id
  · exact hid ▸ t.own
  · refine (t.others id' hid).sound ?_
    rw [view_append_of_not_ending (hm.issue id') (hm.others id' hid)]
    exact hs.views id'

/-- A call is settled by a stimulus that the peer need not be told of. -/
theorem Sound.settle (hs : Sound h s) (hm : m.Ends id e)
    (hl : ∀ spec : CallSpec, e.Leaves id spec [spec.sent id]) :
    Leads (h ++ [m]) s (s.settle id e.outcome).2 (Sound · (s.settle id e.outcome).2) := by
  cases hp : s.pending.get? id with
  | none =>
    rw [settle_of_not_pending hp]
    exact .refl (hs.append_of_not_pending hm hp)
  | some c =>
    obtain ⟨expiry, hv⟩ := view_of_pending (hs.views id) hp
    have hv' := view_append_of_waiting (hm.issue id) hv
    rw [hm.own] at hv'
    rw [settle_of_pending hp]
    refine (tell_leads (hs.counted.append hm.issue) (detached_detach s id) hv').mono fun h' t => ?_
    refine hs.of_touched hm ⟨t.counted, t.others, ?_⟩
    rw [t.own]
    exact .ended c expiry e (hl c.spec)

/-- A call is settled by a stimulus that the peer is told of. -/
theorem Sound.abort (hs : Sound h s) (hm : m.Ends id e) {error : CallError}
    {reason : Option String} (he : e.outcome = .error error) (hn : e.notice? = some reason) :
    Leads (h ++ [m]) s (s.abort id error reason).2 (Sound · (s.abort id error reason).2) := by
  cases hp : s.pending.get? id with
  | none =>
    rw [abort_of_not_pending hp]
    exact .refl (hs.append_of_not_pending hm hp)
  | some c =>
    obtain ⟨expiry, hv⟩ := view_of_pending (hs.views id) hp
    have hv' := view_append_of_waiting (hm.issue id) hv
    rw [hm.own] at hv'
    exact (abort_leads (hs.counted.append hm.issue) hv' he hn).mono fun h' t =>
      hs.of_touched hm t

/-! ### Sweeps and the close -/

theorem view_congr_deadlines {v : View} {d : Deadlines Unit} (hv : view h s id = v) :
    view h { s with deadlines := d } id =
      { v with expiry? := (d.get? id).map Deadline.expiry } := by
  rw [← hv]
  rfl

theorem view_congr_pending {v : View} {p : PendingCalls} (hv : view h s id = v) :
    view h { s with pending := p } id = { v with pending? := p.get? id } := by
  rw [← hv]
  rfl

theorem mem_overdue : id ∈ s.overdue ↔ ∃ x, s.deadlines.get? id = some x ∧ x.expiry ≤ s.clock := by
  rw [overdue, List.mem_map]
  constructor
  · rintro ⟨⟨id', a⟩, ha, rfl⟩
    obtain ⟨x, hx, hd, -⟩ := Deadlines.mem_due.1 ha
    exact ⟨x, hx, hd⟩
  · rintro ⟨x, hx, hd⟩
    exact ⟨(id, x.alarm), Deadlines.mem_due.2 ⟨x, hx, hd, rfl⟩, rfl⟩

/-- An overdue call is waiting. -/
theorem view_of_overdue (hs : Sound h s) (hid : id ∈ s.overdue) :
    ∃ c expiry, view h s id = ⟨some (c, expiry), none, [], [c.spec.sent id], some c, expiry⟩ ∧
      expiry.any (· ≤ s.clock) = true := by
  obtain ⟨x, hx, hd⟩ := mem_overdue.1 hid
  have sound := hs.views id
  have hx' : (view h s id).expiry? = some x.expiry := by rw [view, hx]; rfl
  generalize view h s id = v at sound hx'
  cases sound with
  | unissued => exact absurd hx' (by simp)
  | waiting c expiry =>
    obtain rfl : expiry = some x.expiry := hx'
    exact ⟨c, _, rfl, by simpa using hd⟩
  | ended c expiry e left => exact absurd hx' (by simp)

/-- A sweep leaves the view of a call alone that is not overdue. -/
theorem view_sweep_of_not_overdue (hs : Sound h s) (hid : id ∉ s.overdue) :
    view (h ++ [.swept s.clock]) { s with deadlines := s.deadlines.notDue s.clock } id =
      view h s id := by
  have hd : (s.deadlines.notDue s.clock).get? id = s.deadlines.get? id := by
    rw [Deadlines.get?_notDue]
    cases hx : s.deadlines.get? id with
    | none => rfl
    | some x =>
      have hlt : s.clock < x.expiry := by
        by_contra hle
        exact hid (mem_overdue.2 ⟨x, hx, by omega⟩)
      simp [hlt]
  have hv : view (h ++ [.swept s.clock]) { s with deadlines := s.deadlines.notDue s.clock } id =
      view (h ++ [.swept s.clock]) s id := by
    simp only [view, hd]
    rfl
  rw [hv]
  cases hp : s.pending.get? id with
  | none => exact view_append_stimulus_of_not_waiting rfl (hs.views id) hp
  | some c =>
    obtain ⟨expiry, hw⟩ := view_of_pending (hs.views id) hp
    have hx : (s.deadlines.get? id).map Deadline.expiry = expiry := congrArg View.expiry? hw
    have hn : (Moment.swept s.clock).ending? id expiry = none := by
      refine if_neg fun hany => ?_
      rw [← hx, Option.any_map, Option.any_eq_true_iff_get] at hany
      obtain ⟨hsome, hle⟩ := hany
      exact hid (mem_overdue.2 ⟨_, (Option.some_get hsome).symm, by simpa using hle⟩)
    rw [view_append_of_waiting rfl hw, hw, hn]

/-- **A sweep settles the overdue calls, in any order.** -/
theorem Sound.expireAll (hs : Sound h s) {order : List RequestId} (ho : order.Perm s.overdue) :
    Leads (h ++ [.swept s.clock]) s (s.expireAll order) (Sound · (s.expireAll order)) := by
  have hc : Counted (h ++ [.swept s.clock])
      { s with deadlines := s.deadlines.notDue s.clock } :=
    (hs.counted.append fun _ => rfl).congr rfl
  refine @foldl_leads _ expire (fun id => id) (fun id v => ∃ c expiry x,
    v = ⟨some (c, expiry), some .expired, [], [c.spec.sent id], some c, x⟩) ?_ onward_expire
    ?_ order _ { s with deadlines := s.deadlines.notDue s.clock } ?_ hc ?_ ?_
  · rintro id v ⟨c, expiry, x, rfl⟩
    simp
  · rintro h s id hc ⟨c, expiry, x, hv⟩
    exact abort_leads hc hv rfl rfl
  · rw [List.map_id']
    exact ho.nodup_iff.2 (Deadlines.nodup_due _ _)
  · intro id hid
    obtain ⟨c, expiry, hv, hd⟩ := view_of_overdue hs (ho.mem_iff.1 hid)
    have hv' := view_append_of_waiting (m := .swept s.clock) rfl hv
    have he : (Moment.swept s.clock).ending? id expiry = some .expired := if_pos hd
    rw [he] at hv'
    exact ⟨c, expiry, _, view_congr_deadlines hv'⟩
  · intro id hid
    rw [List.map_id'] at hid
    rw [view_sweep_of_not_overdue hs fun ho' => hid (ho.mem_iff.2 ho')]
    exact hs.views id

/-- **The close settles the calls that wait, in any order.** -/
theorem Sound.disconnectAll (hs : Sound h s) {order : List (RequestId × Call)}
    (ho : order.Perm s.pending.toList) :
    Leads (h ++ [.closed]) s (s.disconnectAll order) (Sound · (s.disconnectAll order)) := by
  have hc : Counted (h ++ [.closed]) { s with pending := .empty } :=
    (hs.counted.append fun _ => rfl).congr rfl
  refine @foldl_leads _ disconnect Prod.fst (fun a v => ∃ expiry x,
    v = ⟨some (a.2, expiry), some .disconnected, [], [a.2.spec.sent a.1], none, x⟩) ?_
    onward_disconnect ?_ order _ { s with pending := .empty } ?_ hc ?_ ?_
  · rintro a v ⟨expiry, x, rfl⟩
    simp
  · rintro h s a hc ⟨expiry, x, hv⟩
    exact disconnect_leads hc hv
  · exact (ho.map Prod.fst).nodup_iff.2 s.pending.nodup
  · rintro ⟨id, c⟩ ha
    obtain ⟨expiry, hv⟩ := view_of_pending (hs.views id) (Table.mem_entries.1 (ho.mem_iff.1 ha))
    have hv' := view_append_of_waiting (m := .closed) rfl hv
    exact ⟨expiry, _, view_congr_pending hv'⟩
  · intro id hid
    have hp : s.pending.get? id = none := by
      refine Option.eq_none_iff_forall_ne_some.2 fun c hget => hid ?_
      exact List.mem_map.2 ⟨(id, c), ho.mem_iff.2 (Table.mem_entries.2 hget), rfl⟩
    have hv : view (h ++ [.closed]) { s with pending := .empty } id =
        view (h ++ [.closed]) s id := by
      simp only [view, hp]
      rfl
    rw [hv, view_append_stimulus_of_not_waiting rfl (hs.views id) hp]
    exact hs.views id

/-! ### Actions -/

/-- An action that leaves all calls alone. -/
theorem Sound.congr (hs : Sound h s) (hlog : s'.log = s.log) (hids : s'.ids = s.ids)
    (hp : s'.pending = s.pending) (hd : s'.deadlines = s.deadlines) : Sound h s' := by
  refine ⟨hs.counted.congr hids, fun id => ?_⟩
  have hv : view h s' id = view h s id := by
    simp only [view, settlements, traffic, hlog, hp, hd]
  rw [hv]
  exact hs.views id

theorem Sound.follow (hs : Sound h s) (f : Followup) :
    Leads h s (s.follow f) (Sound · (s.follow f)) :=
  (follow_leads hs.counted f).mono fun _ k => ⟨k.1, fun id => (k.2 id).sound (hs.views id)⟩

/-- A call that somebody waits for is issued with a new channel. -/
theorem Sound.call (hs : Sound h s) (spec : CallSpec) :
    Leads h s (s.call spec).2.2 (Sound · (s.call spec).2.2) := by
  have hopened : Sound h { s with replies := s.replies.fresh.2 } := hs.congr rfl rfl rfl rfl
  exact hopened.follow _

theorem respond_eq (s : Session) (r : Response) :
    s.respond r = (s.settle r.id (Ending.answered r.outcome).outcome).2 := by
  obtain ⟨id, o⟩ := r
  cases o <;> rfl

theorem Sound.respond (hs : Sound h s) (r : Response) :
    Leads (h ++ [.answered r]) s (s.respond r) (Sound · (s.respond r)) := by
  rw [respond_eq]
  exact hs.settle (Moment.ends_answered r) fun spec => rfl

theorem withdrawal_of_registered {c : Cancellation} {handle : Handle}
    (hr : s.inbound.table.get? c.id = some handle) : s.withdrawal c = [] :=
  if_pos (by simp [Registry.isRegistered, Table.contains, hr])

theorem withdrawal_of_not_registered {c : Cancellation}
    (hr : s.inbound.table.get? c.id = none) : s.withdrawal c = [.withdrawn c] :=
  if_neg (by simp [Registry.isRegistered, Table.contains, hr])

/-- The peer cancels: work of its own, or else a call. -/
theorem Sound.cancelled (hs : Sound h s) (c : Cancellation) :
    Leads (h ++ s.withdrawal c) s (s.cancelled c) (Sound · (s.cancelled c)) := by
  cases hr : s.inbound.table.get? c.id with
  | none =>
    rw [withdrawal_of_not_registered hr, cancelled_of_not_registered hr]
    exact hs.settle (Moment.ends_withdrawn c) fun spec => rfl
  | some handle =>
    rw [withdrawal_of_registered hr, cancelled_of_registered hr, List.append_nil]
    exact .of_log_eq rfl (hs.congr rfl rfl rfl rfl)

theorem Sound.handle (hs : Sound h s) (msg : Message) :
    Leads (h ++ s.stimuli (.handle msg)) s (s.handle msg).2 (Sound · (s.handle msg).2) := by
  cases msg with
  | request r =>
    rw [stimuli, List.append_nil]
    exact .refl hs
  | response r => exact hs.respond r
  | notification n =>
    cases hn : n.cancellation? with
    | none =>
      simp only [stimuli, handle_of_not_cancellation hn, hn, Option.elim_none, List.append_nil]
      exact .refl hs
    | some c =>
      simp only [stimuli, handle_of_cancellation hn, hn, Option.elim_some]
      exact hs.cancelled c

/-- **Every action keeps a session sound.** -/
theorem Step.leads {a : Action} (step : Step s a s') (hs : Sound h s) :
    Leads (h ++ s.stimuli a) s s' (Sound · s') := by
  cases step with
  | issue c =>
    rw [stimuli, List.append_nil]
    exact hs.follow _
  | call spec =>
    rw [stimuli, List.append_nil]
    exact hs.call spec
  | respond r => exact hs.respond r
  | cancelled c => exact hs.cancelled c
  | cancelCall id reason => exact hs.abort (Moment.ends_cancelled id reason) rfl rfl
  | checkTimeouts ho => exact hs.expireAll ho
  | close ho =>
    obtain ⟨events, hlog, hQ⟩ := hs.disconnectAll ho
    exact ⟨events, hlog, fun few => (hQ few).congr rfl rfl rfl rfl⟩
  | handle msg => exact hs.handle msg
  | beginInbound id | finishInbound id handle | relink link upcoming =>
    rw [stimuli, List.append_nil]
    exact .of_log_eq rfl (hs.congr rfl rfl rfl rfl)
  | wait millis =>
    refine .of_log_eq rfl (Sound.congr (s := s) ?_ rfl rfl rfl rfl)
    refine ⟨hs.counted.append fun _ => rfl, fun id => ?_⟩
    rw [stimuli, view_append_of_not_ending rfl fun _ => rfl]
    exact hs.views id

/-! ### Runs -/

/-- A new session is sound. -/
theorem sound_new (config : SessionConfig) : Sound [] ({ config } : Session) :=
  ⟨⟨rfl, rfl⟩, fun _ => .unissued⟩

/-- **Every run of a new session leaves it sound**, as long as identifiers are not used again. -/
theorem Run.sound {config : SessionConfig} (run : Run { config } h s) (few : Few h) :
    Sound h s := by
  induction run with
  | start => exact sound_new config
  | @step h s s' a run step ih =>
    obtain ⟨events, hlog, hQ⟩ := step.leads (ih few.of_append.of_append)
    have he : s'.log.drop s.log.length = events := by rw [hlog, List.drop_left]
    rw [he] at few ⊢
    exact hQ few

end Session
end Switchboard
