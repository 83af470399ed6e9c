import Switchboard.Deadlines

/-!
# What happens to deadlines, event by event

An alarm looks at what it disarms, so that what it does depends on the table that it meets.
`Alarm.trace` writes that down as a list of events, each with what it drops from the table, and
`replay` carries such a list out: an alarm leaves the notes and the table of its trace
(`Alarm.run_eq`), and so do alarms one after another (`Alarm.runAll_eq`).

After events that tell what they meet (`Faithful`), the deadline under an identifier is the last one
that was armed there and that no event has touched since: `get?_replay_eq_some_iff`.
-/

namespace Switchboard
namespace Deadlines

variable {α : Type}

/-! ### Entries -/

theorem get?_armAny_of_ne (d : Deadlines α) {id id' : RequestId} (hne : id' ≠ id)
    (expiry? : Option Nat) (a : α) : (d.armAny id expiry? a).get? id' = d.get? id' := by
  cases expiry? with
  | none => rfl
  | some expiry => rw [armAny, arm, Table.get?_insert, if_neg hne]

theorem expiry_armAny_self {d : Deadlines α} {id : RequestId} (hd : d.get? id = none)
    (expiry? : Option Nat) (a : α) :
    ((d.armAny id expiry? a).get? id).map Deadline.expiry = expiry? := by
  cases expiry? with
  | none => rw [armAny, hd]; rfl
  | some expiry => rw [armAny, arm, Table.get?_insert, if_pos rfl]; rfl

theorem get?_notDue (d : Deadlines α) (now : Nat) (id : RequestId) :
    (d.notDue now).get? id = (d.get? id).filter fun x => now < x.expiry := by
  apply Option.ext
  intro x
  rw [notDue, Table.get?_filter, Option.filter_eq_some_iff]
  simp [isDue]

theorem mem_filter_isDue {d : Deadlines α} {now : Nat} {id : RequestId} {x : Deadline α} :
    (id, x) ∈ d.toList.filter (isDue now) ↔ d.get? id = some x ∧ x.expiry ≤ now := by
  rw [List.mem_filter, Table.toList, Table.mem_entries, isDue, decide_eq_true_eq]

theorem mem_due {d : Deadlines α} {now : Nat} {id : RequestId} {a : α} :
    (id, a) ∈ d.due now ↔ ∃ x, d.get? id = some x ∧ x.expiry ≤ now ∧ x.alarm = a := by
  simp only [due, List.mem_map, Prod.exists, Prod.mk.injEq, mem_filter_isDue]
  constructor
  · rintro ⟨_, x, ⟨hx, hd⟩, rfl, ha⟩
    exact ⟨x, hx, hd, ha⟩
  · rintro ⟨x, hx, hd, ha⟩
    exact ⟨id, x, ⟨hx, hd⟩, rfl, ha⟩

theorem nodup_due (d : Deadlines α) (now : Nat) : ((d.due now).map Prod.fst).Nodup := by
  have hm : (d.due now).map Prod.fst = (d.toList.filter (isDue now)).map Prod.fst := by
    simp [due]
  rw [hm]
  exact d.nodup.sublist (List.filter_sublist.map Prod.fst)

/-! ### Events -/

/-- What happens to deadlines, with what it drops from the table. -/
inductive Event (ε : Type)
  | armed (id : RequestId) (x : Deadline (Alarm ε)) (old : Option (Deadline (Alarm ε)))
  /-- Whoever disarms is told whether something was dropped. -/
  | disarmed (id : RequestId) (old : Option (Deadline (Alarm ε)))
  /-- A sweep takes everything due off the table. -/
  | swept (now : Nat) (taken : List (RequestId × Deadline (Alarm ε)))
  /-- The carrying out of an alarm begins. -/
  | fired (id : RequestId) (alarm : Alarm ε)
  | noted (e : ε)

variable {ε : Type} {d : Deadlines (Alarm ε)} {e : Event ε} {t : List (Event ε)} {id : RequestId}
  {x : Deadline (Alarm ε)}

namespace Event

def note? : Event ε → Option ε
  | noted e => some e
  | _ => none

/-- The alarm whose carrying out begins. -/
def firing? : Event ε → Option (RequestId × Alarm ε)
  | fired id alarm => some (id, alarm)
  | _ => none

/-- The table after an event. -/
def apply : Event ε → Deadlines (Alarm ε) → Deadlines (Alarm ε)
  | armed id x _, d => d.insert id x
  | disarmed id _, d => d.erase id
  | swept now _, d => d.notDue now
  | fired _ _, d | noted _, d => d

/-- The event tells what is on the table. -/
def Fits (d : Deadlines (Alarm ε)) : Event ε → Prop
  | armed id _ old | disarmed id old => old = d.get? id
  | swept now taken => taken = d.toList.filter (isDue now)
  | fired _ _ | noted _ => True

/-- The event arms or drops a deadline of the identifier. -/
def Touches (id : RequestId) : Event ε → Prop
  | armed k _ _ | disarmed k _ => k = id
  | swept _ taken => ∃ x, (id, x) ∈ taken
  | fired _ _ | noted _ => False

theorem get?_apply_of_not_touches (hfits : e.Fits d) (h : ¬ e.Touches id) :
    (e.apply d).get? id = d.get? id := by
  cases e with
  | armed k x old =>
    show (d.insert k x).get? id = d.get? id
    rw [Table.get?_insert, if_neg (Ne.symm h)]
  | disarmed k old =>
    show (d.erase k).get? id = d.get? id
    rw [Table.get?_erase, if_neg (Ne.symm h)]
  | swept now taken =>
    show (d.notDue now).get? id = d.get? id
    rw [get?_notDue]
    cases hget : d.get? id with
    | none => rfl
    | some x =>
      have hlater : ¬ x.expiry ≤ now := fun hdue =>
        h ⟨x, hfits ▸ mem_filter_isDue.mpr ⟨hget, hdue⟩⟩
      exact Option.filter_some_pos (by simpa using hlater)
  | fired => rfl
  | noted => rfl

/-- What stands under an identifier after an event that touches it has just been armed. -/
theorem eq_armed_of_touches (hfits : e.Fits d) (h : e.Touches id)
    (hget : (e.apply d).get? id = some x) : ∃ old, e = armed id x old := by
  cases e with
  | armed k y old =>
    have hk : k = id := h
    subst hk
    have hself : (d.insert k y).get? k = some y := by rw [Table.get?_insert, if_pos rfl]
    cases hself.symm.trans hget
    exact ⟨old, rfl⟩
  | disarmed k old =>
    have hk : k = id := h
    subst hk
    have hself : (d.erase k).get? k = none := by rw [Table.get?_erase, if_pos rfl]
    cases hself.symm.trans hget
  | swept now taken =>
    obtain ⟨y, hy⟩ := h
    obtain ⟨hy, hdue⟩ := mem_filter_isDue.mp (hfits ▸ hy)
    have hgone : (d.notDue now).get? id = none := by
      rw [get?_notDue, hy]
      exact Option.filter_some_neg (by simpa using hdue)
    cases hgone.symm.trans hget
  | fired => cases h
  | noted => cases h

end Event

/-! ### Lists of events -/

/-- The table after events. -/
def replay : List (Event ε) → Deadlines (Alarm ε) → Deadlines (Alarm ε)
  | [], d => d
  | e :: t, d => replay t (e.apply d)

/-- Every event tells what is on the table when it happens. -/
def Faithful : List (Event ε) → Deadlines (Alarm ε) → Prop
  | [], _ => True
  | e :: t, d => e.Fits d ∧ Faithful t (e.apply d)

/-- No event arms or drops a deadline of the identifier. -/
def Untouched (id : RequestId) (t : List (Event ε)) : Prop :=
  ∀ e ∈ t, ¬ e.Touches id

theorem replay_append (s t : List (Event ε)) (d : Deadlines (Alarm ε)) :
    replay (s ++ t) d = replay t (replay s d) := by
  induction s generalizing d with
  | nil => rfl
  | cons e s ih => exact ih (e.apply d)

theorem faithful_append {s : List (Event ε)} :
    Faithful (s ++ t) d ↔ Faithful s d ∧ Faithful t (replay s d) := by
  induction s generalizing d with
  | nil => exact ⟨fun h => ⟨trivial, h⟩, fun h => h.2⟩
  | cons e s ih =>
    show e.Fits d ∧ Faithful (s ++ t) (e.apply d) ↔
      (e.Fits d ∧ Faithful s (e.apply d)) ∧ Faithful t (replay s (e.apply d))
    rw [ih, and_assoc]

theorem get?_replay_of_untouched (hfaith : Faithful t d) (h : Untouched id t) :
    (replay t d).get? id = d.get? id := by
  induction t generalizing d with
  | nil => rfl
  | cons e t ih =>
    obtain ⟨hfits, hfaith⟩ := hfaith
    obtain ⟨hhead, htail⟩ := List.forall_mem_cons.mp h
    exact (ih hfaith htail).trans (Event.get?_apply_of_not_touches hfits hhead)

/-- **The last arming stands**, unless something has touched its identifier since. -/
theorem get?_replay_eq_some_iff (hfaith : Faithful t d) :
    (replay t d).get? id = some x ↔
      d.get? id = some x ∧ Untouched id t ∨
        ∃ pre old post, t = pre ++ .armed id x old :: post ∧ Untouched id post := by
  constructor
  · intro hget
    induction t generalizing d with
    | nil => exact .inl ⟨hget, List.forall_mem_nil _⟩
    | cons e t ih =>
      obtain ⟨hfits, hfaith⟩ := hfaith
      rcases ih hfaith hget with ⟨hhead, hquiet⟩ | ⟨pre, old, post, rfl, hquiet⟩
      · by_cases htouch : e.Touches id
        · obtain ⟨old, rfl⟩ := Event.eq_armed_of_touches hfits htouch hhead
          exact .inr ⟨[], old, t, rfl, hquiet⟩
        · rw [Event.get?_apply_of_not_touches hfits htouch] at hhead
          exact .inl ⟨hhead, List.forall_mem_cons.mpr ⟨htouch, hquiet⟩⟩
      · exact .inr ⟨e :: pre, old, post, rfl, hquiet⟩
  · rintro (⟨hget, hquiet⟩ | ⟨pre, old, post, rfl, hquiet⟩)
    · rw [get?_replay_of_untouched hfaith hquiet, hget]
    · obtain ⟨-, -, hfaith⟩ := faithful_append.mp hfaith
      have hself : ((replay pre d).insert id x).get? id = some x := by
        rw [Table.get?_insert, if_pos rfl]
      rw [replay_append]
      exact (get?_replay_of_untouched hfaith hquiet).trans hself

end Deadlines

/-! ### Alarms -/

namespace Alarm

open Deadlines

variable {ε : Type} (alarm : Alarm ε) (d : Deadlines (Alarm ε)) (order : List (RequestId × Alarm ε))

/-- What an alarm does to the table that it meets. -/
def trace : Alarm ε → Deadlines (Alarm ε) → List (Event ε)
  | .stop, _ => []
  | .note e next, d => .noted e :: next.trace d
  | .arm id expiry alarm next, d =>
    .armed id ⟨expiry, alarm⟩ (d.get? id) :: next.trace (d.arm id expiry alarm)
  | .disarm id next, d =>
    .disarmed id (d.get? id) :: (next (d.get? id).isSome).trace (d.erase id)

/-- What alarms do, one after another. -/
def traceAll : List (RequestId × Alarm ε) → Deadlines (Alarm ε) → List (Event ε)
  | [], _ => []
  | (id, alarm) :: rest, d =>
    .fired id alarm :: (alarm.trace d ++ traceAll rest (replay (alarm.trace d) d))

/-- **An alarm leaves the notes and the table of its trace.** -/
theorem run_eq : alarm.run d = ((alarm.trace d).filterMap Event.note?, replay (alarm.trace d) d) := by
  induction alarm generalizing d with
  | stop => rfl
  | note e next ih =>
    rw [run, ih]
    rfl
  | arm id expiry alarm next _ ih => exact ih (d.arm id expiry alarm)
  | disarm id next ih => exact ih (d.get? id).isSome (d.erase id)

theorem faithful_trace : Faithful (alarm.trace d) d := by
  induction alarm generalizing d with
  | stop => trivial
  | note e next ih => exact ⟨trivial, ih d⟩
  | arm id expiry alarm next _ ih => exact ⟨rfl, ih (d.arm id expiry alarm)⟩
  | disarm id next ih => exact ⟨rfl, ih (d.get? id).isSome (d.erase id)⟩

/-- An alarm does not sweep. -/
theorem firing?_trace : (alarm.trace d).filterMap Event.firing? = [] := by
  induction alarm generalizing d with
  | stop => rfl
  | note e next ih => exact ih d
  | arm id expiry alarm next _ ih => exact ih (d.arm id expiry alarm)
  | disarm id next ih => exact ih (d.get? id).isSome (d.erase id)

/-- **Alarms leave the notes and the table of their traces.** -/
theorem runAll_eq :
    runAll order d = ((traceAll order d).filterMap Event.note?, replay (traceAll order d) d) := by
  induction order generalizing d with
  | nil => rfl
  | cons a rest ih =>
    rw [runAll, run_eq]
    show (_ ++ (runAll rest _).1, (runAll rest _).2) = _
    rw [ih, traceAll, List.filterMap_cons, List.filterMap_append]
    exact Prod.ext rfl (replay_append _ _ d).symm

theorem faithful_traceAll : Faithful (traceAll order d) d := by
  induction order generalizing d with
  | nil => trivial
  | cons a rest ih => exact ⟨trivial, faithful_append.mpr ⟨faithful_trace a.2 d, ih _⟩⟩

/-- Each alarm is carried out once, in the given order. -/
theorem firing?_traceAll : (traceAll order d).filterMap Event.firing? = order := by
  induction order generalizing d with
  | nil => rfl
  | cons a rest ih =>
    have hrest := ih (replay (a.2.trace d) d)
    rw [traceAll, List.filterMap_cons, List.filterMap_append, firing?_trace, hrest]
    rfl

end Alarm
end Switchboard
