import Mathlib.Data.List.Nodup
import Switchboard.Proofs.Deadlines.Sweep

/-!
# Every deadline is accounted for

A deadline comes off the table in one of three ways (`Fate`): it is fired by a sweep, cancelled, or
replaced by another one for its identifier. No event makes or loses a deadline: what was on the table
and what it arms are what is on the table afterwards and what it drops, with multiplicity
(`Event.perm_apply`). Over a whole run, in which deadlines are armed, disarmed and swept by anyone in
any order, what was ever armed is hence what is still armed and what had a fate
(`Run.accounts`), and each alarm that was carried out is that of a deadline that was fired.
-/

namespace Switchboard

namespace Deadlines

open scoped List

/-- How a deadline comes off the table. -/
inductive Fate
  | fired (now : Nat)
  | cancelled
  | replaced

variable {ε : Type} {d : Deadlines (Alarm ε)} {e : Event ε} {t : List (Event ε)} {id : RequestId}
  {x : Deadline (Alarm ε)}

namespace Event

/-- The deadline that an event arms. -/
def arming? : Event ε → Option (RequestId × Deadline (Alarm ε))
  | armed id x _ => some (id, x)
  | _ => none

/-- The deadlines that an event drops, and why. -/
def fates : Event ε → List (Fate × RequestId × Deadline (Alarm ε))
  | armed id _ old => old.toList.map fun x => (.replaced, id, x)
  | disarmed id old => old.toList.map fun x => (.cancelled, id, x)
  | swept now taken => taken.map fun entry => (.fired now, entry)
  | fired _ _ | noted _ => []

/-- **No event makes or loses a deadline.** -/
theorem perm_apply (hfits : e.Fits d) :
    (d.toList ++ e.arming?.toList).Perm ((e.apply d).toList ++ e.fates.map Prod.snd) := by
  cases e with
  | armed id x old =>
    have hold : old = d.get? id := hfits
    subst hold
    have hfates : (armed id x (d.get? id)).fates.map Prod.snd =
        (d.get? id).toList.map fun x => (id, x) :=
      List.map_map
    rw [hfates]
    refine ((d.perm_erase id).append_right [(id, x)]).trans ?_
    show List.Perm _ (((d.erase id).entries ++ [(id, x)]) ++ _)
    rw [List.append_assoc, List.append_assoc]
    exact List.perm_append_comm.append_left _
  | disarmed id old =>
    have hold : old = d.get? id := hfits
    subst hold
    have hfates : (disarmed id (d.get? id)).fates.map Prod.snd =
        (d.get? id).toList.map fun x => (id, x) :=
      List.map_map
    show (d.toList ++ []).Perm _
    rw [hfates, List.append_nil]
    exact d.perm_erase id
  | swept now taken =>
    have htaken : taken = d.toList.filter (isDue now) := hfits
    subst htaken
    have hfates : (swept now (d.toList.filter (isDue now))).fates.map Prod.snd =
        d.toList.filter (isDue now) :=
      List.map_map.trans (List.map_id _)
    show (d.toList ++ []).Perm _
    rw [hfates, List.append_nil]
    exact (List.filter_append_perm (isDue now) d.toList).symm.trans List.perm_append_comm
  | fired => exact .refl _
  | noted => exact .refl _

/-- An event that touches an identifier decides the fate of what is under it. -/
theorem exists_fate (hfits : e.Fits d) (htouch : e.Touches id) (hget : d.get? id = some x) :
    ∃ fate, (fate, id, x) ∈ e.fates := by
  cases e with
  | armed k y old =>
    have hk : k = id := htouch
    subst hk
    have hold : old = some x := Eq.trans hfits hget
    exact ⟨.replaced, by simp [fates, hold]⟩
  | disarmed k old =>
    have hk : k = id := htouch
    subst hk
    have hold : old = some x := Eq.trans hfits hget
    exact ⟨.cancelled, by simp [fates, hold]⟩
  | swept now taken =>
    obtain ⟨y, hy⟩ := htouch
    obtain ⟨hy', -⟩ := mem_filter_isDue.mp (hfits ▸ hy)
    cases hget.symm.trans hy'
    exact ⟨.fired now, List.mem_map.mpr ⟨_, hy, rfl⟩⟩
  | fired => cases htouch
  | noted => cases htouch

/-- Nothing is fired early. -/
theorem expiry_le_of_fired {now : Nat} (hfits : e.Fits d) (h : (.fired now, id, x) ∈ e.fates) :
    x.expiry ≤ now := by
  cases e with
  | armed k y old => simp [fates] at h
  | disarmed k old => simp [fates] at h
  | swept now' taken =>
    obtain ⟨entry, hmem, heq⟩ := List.mem_map.mp h
    cases heq
    exact (mem_filter_isDue.mp (hfits ▸ hmem)).2
  | fired => cases h
  | noted => cases h

end Event

/-! ### Lists of events -/

/-- **No event of a list makes or loses a deadline.** -/
theorem perm_replay (hfaith : Faithful t d) :
    (d.toList ++ t.filterMap Event.arming?).Perm
      ((replay t d).toList ++ (t.flatMap Event.fates).map Prod.snd) := by
  induction t generalizing d with
  | nil => exact .refl _
  | cons e t ih =>
    obtain ⟨hfits, hfaith⟩ := hfaith
    have harmed : (e :: t).filterMap Event.arming? = e.arming?.toList ++ t.filterMap Event.arming? := by
      rw [List.filterMap_cons]
      cases e.arming? <;> rfl
    have hfates : ((e :: t).flatMap Event.fates).map Prod.snd =
        e.fates.map Prod.snd ++ (t.flatMap Event.fates).map Prod.snd := by
      rw [List.flatMap_cons, List.map_append]
    rw [harmed, hfates]
    calc
      _ ~ ((e.apply d).toList ++ e.fates.map Prod.snd) ++ t.filterMap Event.arming? := by
        rw [← List.append_assoc]
        exact (e.perm_apply hfits).append_right _
      _ ~ ((e.apply d).toList ++ t.filterMap Event.arming?) ++ e.fates.map Prod.snd := by
        rw [List.append_assoc, List.append_assoc]
        exact List.perm_append_comm.append_left _
      _ ~ ((replay t (e.apply d)).toList ++ (t.flatMap Event.fates).map Prod.snd) ++
          e.fates.map Prod.snd := (ih hfaith).append_right _
      _ ~ (replay t (e.apply d)).toList ++
          (e.fates.map Prod.snd ++ (t.flatMap Event.fates).map Prod.snd) := by
        rw [List.append_assoc]
        exact List.perm_append_comm.append_left _

/-- A deadline stands until an event decides its fate. -/
theorem standing_or_fate (hfaith : Faithful t d) (hget : d.get? id = some x) :
    Untouched id t ∧ (replay t d).get? id = some x ∨
      ∃ mid e post fate, t = mid ++ e :: post ∧ Untouched id mid ∧ (fate, id, x) ∈ e.fates := by
  induction t generalizing d with
  | nil => exact .inl ⟨List.forall_mem_nil _, hget⟩
  | cons e t ih =>
    obtain ⟨hfits, hfaith⟩ := hfaith
    by_cases htouch : e.Touches id
    · obtain ⟨fate, hfate⟩ := e.exists_fate hfits htouch hget
      exact .inr ⟨[], e, t, fate, rfl, List.forall_mem_nil _, hfate⟩
    · have hkept : (e.apply d).get? id = some x :=
        (Event.get?_apply_of_not_touches hfits htouch).trans hget
      rcases ih hfaith hkept with ⟨hquiet, hlast⟩ | ⟨mid, e', post, fate, rfl, hquiet, hfate⟩
      · exact .inl ⟨List.forall_mem_cons.mpr ⟨htouch, hquiet⟩, hlast⟩
      · exact .inr ⟨e :: mid, e', post, fate, rfl, List.forall_mem_cons.mpr ⟨htouch, hquiet⟩, hfate⟩

theorem expiry_le_of_fired {now : Nat} (hfaith : Faithful t d)
    (h : (.fired now, id, x) ∈ t.flatMap Event.fates) : x.expiry ≤ now := by
  induction t generalizing d with
  | nil => cases h
  | cons e t ih =>
    rw [List.flatMap_cons, List.mem_append] at h
    rcases h with h | h
    · exact e.expiry_le_of_fired hfaith.1 h
    · exact ih hfaith.2 h

/-! ### Fired alarms -/

/-- The alarm of a deadline that a sweep fires. -/
def Fate.alarm? : Fate × RequestId × Deadline (Alarm ε) → Option (RequestId × Alarm ε)
  | (.fired _, id, x) => some (id, x.alarm)
  | _ => none

/-- The alarms of the deadlines that events fire. -/
def firedAlarms (t : List (Event ε)) : List (RequestId × Alarm ε) :=
  (t.flatMap Event.fates).filterMap Fate.alarm?

theorem firedAlarms_append (s t : List (Event ε)) :
    firedAlarms (s ++ t) = firedAlarms s ++ firedAlarms t := by
  rw [firedAlarms, List.flatMap_append, List.filterMap_append]
  rfl

theorem firedAlarms_armed (id : RequestId) (x : Deadline (Alarm ε))
    (old : Option (Deadline (Alarm ε))) : firedAlarms [.armed id x old] = [] := by
  cases old <;> rfl

theorem firedAlarms_disarmed (id : RequestId) (old : Option (Deadline (Alarm ε))) :
    firedAlarms [.disarmed id old] = [] := by
  cases old <;> rfl

/-- A sweep fires what is due. -/
theorem firedAlarms_swept (now : Nat) (d : Deadlines (Alarm ε)) :
    firedAlarms [.swept now (d.toList.filter (isDue now))] = d.due now := by
  rw [due, firedAlarms, List.flatMap_singleton, Event.fates, List.filterMap_map]
  show List.filterMap (some ∘ fun e : RequestId × Deadline (Alarm ε) => (e.1, e.2.alarm)) _ = _
  rw [List.filterMap_eq_map]

/-- An alarm does not sweep, and so it fires nothing. -/
theorem firedAlarms_trace (alarm : Alarm ε) (d : Deadlines (Alarm ε)) :
    firedAlarms (alarm.trace d) = [] := by
  induction alarm generalizing d with
  | stop => rfl
  | note e next ih => exact ih d
  | arm id expiry alarm next _ ih =>
    show firedAlarms ([_] ++ next.trace (d.arm id expiry alarm)) = []
    rw [firedAlarms_append, firedAlarms_armed, ih, List.nil_append]
  | disarm id next ih =>
    show firedAlarms ([_] ++ (next (d.get? id).isSome).trace (d.erase id)) = []
    rw [firedAlarms_append, firedAlarms_disarmed, ih, List.nil_append]

theorem firedAlarms_traceAll (order : List (RequestId × Alarm ε)) (d : Deadlines (Alarm ε)) :
    firedAlarms (Alarm.traceAll order d) = [] := by
  induction order generalizing d with
  | nil => rfl
  | cons a rest ih =>
    show firedAlarms ([.fired a.1 a.2] ++ (a.2.trace d ++ Alarm.traceAll rest _)) = []
    rw [firedAlarms_append, firedAlarms_append, firedAlarms_trace, ih]
    rfl

/-! ### Runs -/

/-- What may happen to deadlines from the empty table on, and the table after it: they are armed and
disarmed, and swept at whatever instant and in whatever order. -/
inductive Run : List (Event ε) → Deadlines (Alarm ε) → Prop
  | start : Run [] .empty
  | arm {t : List (Event ε)} {d : Deadlines (Alarm ε)} (run : Run t d) (id : RequestId)
      (expiry : Nat) (alarm : Alarm ε) :
      Run (t ++ [.armed id ⟨expiry, alarm⟩ (d.get? id)]) (d.arm id expiry alarm)
  | disarm {t : List (Event ε)} {d : Deadlines (Alarm ε)} (run : Run t d) (id : RequestId) :
      Run (t ++ [.disarmed id (d.get? id)]) (d.disarm id).2
  | sweep {t : List (Event ε)} {d : Deadlines (Alarm ε)} (run : Run t d) {now : Nat}
      {order : List (RequestId × Alarm ε)} (horder : order.Perm (d.due now)) :
      Run (t ++ .swept now (d.toList.filter (isDue now)) ::
        Alarm.traceAll order (d.notDue now)) (Sweep.inOrder now d order).remaining

/-- A run tells what is on the table, and leads to its last table. -/
theorem Run.faithful (run : Run t d) : Faithful t .empty ∧ replay t .empty = d := by
  induction run with
  | start => exact ⟨trivial, rfl⟩
  | arm _ id expiry alarm ih =>
    obtain ⟨hfaith, rfl⟩ := ih
    exact ⟨faithful_append.mpr ⟨hfaith, rfl, trivial⟩, replay_append _ _ _⟩
  | disarm _ id ih =>
    obtain ⟨hfaith, rfl⟩ := ih
    exact ⟨faithful_append.mpr ⟨hfaith, rfl, trivial⟩, replay_append _ _ _⟩
  | sweep _ horder ih =>
    obtain ⟨hfaith, rfl⟩ := ih
    refine ⟨faithful_append.mpr ⟨hfaith, rfl, Alarm.faithful_traceAll _ _⟩, ?_⟩
    rw [replay_append, Sweep.inOrder_eq]
    rfl

/-- Every alarm that is carried out is that of a deadline that a sweep has fired. -/
theorem Run.perm_firedAlarms (run : Run t d) :
    t.filterMap Event.firing? ~ firedAlarms t := by
  induction run with
  | start => exact .refl _
  | arm _ id expiry alarm ih =>
    rw [firedAlarms_append, firedAlarms_armed, List.filterMap_append]
    exact ih.append_right []
  | disarm _ id ih =>
    rw [firedAlarms_append, firedAlarms_disarmed, List.filterMap_append]
    exact ih.append_right []
  | @sweep t d _ now order horder ih =>
    rw [List.append_cons, firedAlarms_append, firedAlarms_append, firedAlarms_swept,
      firedAlarms_traceAll, List.append_nil, List.filterMap_append, List.filterMap_append,
      Alarm.firing?_traceAll]
    show (t.filterMap Event.firing? ++ []) ++ order ~ firedAlarms t ++ d.due now
    rw [List.append_nil]
    exact ih.append horder

/-- What a history of deadlines, and the table after it, say of every deadline. -/
structure Accounts (t : List (Event ε)) (d : Deadlines (Alarm ε)) : Prop where
  /-- What was ever armed is what is armed still and what had a fate, one for one. -/
  armed : t.filterMap Event.arming? ~ d.toList ++ (t.flatMap Event.fates).map Prod.snd
  /-- The alarms that were carried out are those of what was fired, one for one. -/
  alarms : t.filterMap Event.firing? ~ firedAlarms t
  notEarly : ∀ now id x, (.fired now, id, x) ∈ t.flatMap Event.fates → x.expiry ≤ now
  /-- Each deadline stands from its arming on, to the end or to the event that decides its fate. -/
  each : ∀ pre id x old post, t = pre ++ .armed id x old :: post →
    Untouched id post ∧ d.get? id = some x ∨
      ∃ mid e rest fate, post = mid ++ e :: rest ∧ Untouched id mid ∧ (fate, id, x) ∈ e.fates

theorem Run.accounts (run : Run t d) : Accounts t d := by
  obtain ⟨hfaith, rfl⟩ := run.faithful
  refine
    { armed := perm_replay hfaith
      alarms := run.perm_firedAlarms
      notEarly := fun now id x h => expiry_le_of_fired hfaith h
      each := fun pre id x old post ht => ?_ }
  subst ht
  obtain ⟨-, -, hrest⟩ := faithful_append.mp hfaith
  have hself : ((replay pre .empty).insert id x).get? id = some x := by
    rw [Table.get?_insert, if_pos rfl]
  rw [replay_append]
  exact standing_or_fate hrest hself

/-- **A sweep fires exactly what was due when it began, and every deadline has one fate.**

* Whatever is armed, whatever the instant and the order of the alarms: a sweep fires what is due at
  its beginning, each identifier and each alarm once. What its alarms arm stays armed unless another
  one touches it, what was not due stays unless one touches it, and nothing is found to be disarmed
  under an identifier that is being fired (`Sweep.Exact`).
* Over every run, each deadline that was ever armed is still armed, was fired at an instant not
  before its expiry, was cancelled, or was replaced; and the alarms carried out are those of the
  deadlines that were fired (`Accounts`). -/
theorem sweeps_fire_what_was_due :
    (∀ (now : Nat) (d : Deadlines (Alarm ε)) (order : List (RequestId × Alarm ε)),
      order.Perm (d.due now) →
        (Sweep.inOrder now d order).Exact now d (Alarm.traceAll order (d.notDue now))) ∧
    ∀ (t : List (Event ε)) (d : Deadlines (Alarm ε)), Run t d → Accounts t d :=
  ⟨fun _ _ _ horder => Sweep.exact horder, fun _ _ run => run.accounts⟩

/-- Two deadlines are due. The alarm of the first one does not find the second, arms it anew for an
instant that has passed, and takes a third one off that is not due; the second is fired all the
same, and its new deadline stays. -/
theorem sweeps_fire_what_was_due_rearmed :
    ∃ (d : Deadlines (Alarm Bool)) (order : List (RequestId × Alarm Bool)) (t : List (Event Bool)),
      order.Perm (d.due 5) ∧ Run t (Sweep.inOrder 5 d order).remaining ∧
      (Sweep.inOrder 5 d order).fired = [.number 1, .number 2] ∧
      (Sweep.inOrder 5 d order).notes = [false, true] ∧
      (Sweep.inOrder 5 d order).remaining.toList.map (fun e => (e.1, e.2.expiry)) =
        [(.number 2, 3)] ∧
      (∃ expiry, d.next? = some expiry ∧ expiry ≤ 5) ∧
      (t.filterMap Event.arming?).length = 1 + (t.flatMap Event.fates).length := by
  let second : Alarm Bool := .note true .stop
  let first : Alarm Bool :=
    .disarm (.number 2) fun found =>
      .note found (.arm (.number 2) 3 .stop (.disarm (.number 3) fun _ => .stop))
  let d : Deadlines (Alarm Bool) :=
    ((Deadlines.arm (.number 1) 4 first .empty).arm (.number 2) 5 second).arm (.number 3) 6 .stop
  have run : Run _ d := ((Run.start.arm _ _ _).arm _ _ _).arm _ _ _
  have horder : (d.due 5).Perm (d.due 5) := .refl _
  obtain ⟨hsweep, hrun⟩ := @sweeps_fire_what_was_due Bool
  have hsome := (hsweep 5 d _ horder).some_iff.mp (List.cons_ne_nil _ _)
  have hlength := (hrun _ _ (run.sweep horder)).armed.length_eq
  rw [List.length_append, List.length_map] at hlength
  exact ⟨d, _, _, horder, run.sweep horder, rfl, rfl, rfl, hsome, hlength⟩

end Deadlines
end Switchboard
