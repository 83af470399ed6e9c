import Switchboard.Message.Basic
import Switchboard.Proofs.Cancel.Registry

/-!
# A registry over all that happens to it

`InboundEvent` is what can happen to the requests of the peer, and `Registry.replay` is the registry
that such events leave behind, one after the other.

A handle is registered under one identifier, from the beginning of its work to the first event that
takes its place away (`Registry.get?_replay_eq_some`): the request ends, or a newer request uses its
identifier. Where the request ends and its work is not over, the signal fires. Where its identifier
is used, nothing reaches the handle any more.
-/

namespace Switchboard

/-- What happens to the requests of the peer. -/
inductive InboundEvent
  /-- Work begins, under a new handle. -/
  | begun (id : RequestId) (handle : Handle)
  /-- The work with this handle is over. -/
  | finished (id : RequestId) (handle : Handle)
  /-- The peer cancels. -/
  | cancelled (c : Cancellation)
  /-- Somebody who holds a handle fires it. -/
  | fired (handle : Handle) (reason : Option String)
  | closed

namespace InboundEvent

/-- The request ends that a handle serves: its work is over, the peer cancels it, or all requests
end. -/
def Ends (id : RequestId) (handle : Handle) : InboundEvent → Prop
  | begun _ _ | fired _ _ => False
  | finished id' handle' => id' = id ∧ handle' = handle
  | cancelled c => c.id = id
  | closed => True

/-- A handle loses its place under an identifier: its request ends, or a newer request begins. -/
def Takes (id : RequestId) (handle : Handle) (e : InboundEvent) : Prop :=
  e.Ends id handle ∨ ∃ newer, e = .begun id newer

/-- The newest request under an identifier has this handle, and nothing has ended it. -/
def Live (events : List InboundEvent) (id : RequestId) (handle : Handle) : Prop :=
  ∃ before after, events = before ++ .begun id handle :: after ∧
    (∀ newer, .begun id newer ∉ after) ∧ ∀ e ∈ after, ¬ e.Ends id handle

end InboundEvent

namespace Registry

variable {r : Registry} {id : RequestId} {h : Handle} {e : InboundEvent}
  {events : List InboundEvent}

/-- The registry after an event. -/
def after (r : Registry) : InboundEvent → Registry
  | .begun id _ => r.fresh.2.register id r.fresh.1
  | .finished id handle => (r.release id handle).2
  | .cancelled c => (r.cancel c.id c.reason).2
  | .fired handle reason => r.fire handle reason
  | .closed => (r.cancelAll (some "connection closed")).2

/-- The registry after events, one after the other. -/
def replay (events : List InboundEvent) (r : Registry) : Registry :=
  events.foldl after r

theorem replay_append (events events' : List InboundEvent) (r : Registry) :
    replay (events ++ events') r = replay events' (replay events r) :=
  List.foldl_append

/-! ### One event -/

theorem Allocated.after (hr : r.Allocated) (e : InboundEvent) : (r.after e).Allocated := by
  cases e with
  | begun id handle => exact hr.begin id
  | finished id handle => exact hr.release id handle
  | cancelled c => exact hr.cancel c.id c.reason
  | fired handle reason => exact hr.fire handle reason
  | closed => exact allocated_cancelAll r _

/-- Handles stay allocated. -/
theorem lt_length_after (hlt : h.index < r.signals.all.length) (e : InboundEvent) :
    h.index < (r.after e).signals.all.length := by
  cases e with
  | begun id handle =>
    have hlength : (r.after (.begun id handle)).signals.all.length = r.signals.all.length + 1 := by
      simp [after, register, fresh, Signals.fresh]
    rw [hlength]
    exact Nat.lt_succ_of_lt hlt
  | finished id handle => rwa [after, signals_release]
  | cancelled c => rwa [after, length_signals_cancel]
  | fired handle reason => rwa [after, fire, Signals.length_fire]
  | closed => rwa [after, length_signals_cancelAll]

theorem isFired_after (hf : (r.signal h).isFired = true) (e : InboundEvent) :
    ((r.after e).signal h).isFired = true := by
  cases e with
  | begun id handle => exact (congrArg Signal.isFired (Signals.get_fresh _ _)).trans hf
  | finished id handle => rwa [after, signal, signals_release]
  | cancelled c => exact isFired_cancel hf c.id c.reason
  | fired handle reason => exact Signals.isFired_fire _ _ _ _ hf
  | closed => exact Signals.isFired_fireAll hf _ _

theorem ne_fresh (hlt : h.index < r.signals.all.length) : r.fresh.1 ≠ h := by
  rintro rfl
  exact Nat.lt_irrefl _ hlt

/-- **A handle keeps its place** until an event takes it away, and never gets another one. -/
theorem get?_after_eq_some (hlt : h.index < r.signals.all.length) :
    (r.after e).table.get? id = some h ↔ r.table.get? id = some h ∧ ¬ e.Takes id h := by
  cases e with
  | begun id' handle =>
    have htakes : (InboundEvent.begun id' handle).Takes id h ↔ id = id' := by
      simp [InboundEvent.Takes, InboundEvent.Ends, eq_comm]
    rw [htakes, after, register, Table.get?_insert]
    split
    · simp_all [ne_fresh hlt]
    · simp_all [fresh]
  | finished id' handle =>
    have htakes : (InboundEvent.finished id' handle).Takes id h ↔ id = id' ∧ handle = h := by
      simp [InboundEvent.Takes, InboundEvent.Ends, eq_comm]
    rw [htakes, after, get?_release]
    split
    · rename_i hown
      obtain ⟨rfl, hget⟩ := hown
      simp_all
    · rename_i hother
      refine ⟨fun hget => ⟨hget, ?_⟩, And.left⟩
      rintro ⟨rfl, rfl⟩
      exact hother ⟨rfl, hget⟩
  | cancelled c =>
    have htakes : (InboundEvent.cancelled c).Takes id h ↔ id = c.id := by
      simp [InboundEvent.Takes, InboundEvent.Ends, eq_comm]
    rw [htakes, after, get?_cancel]
    split <;> simp_all
  | fired handle reason => simp [InboundEvent.Takes, InboundEvent.Ends, after, fire]
  | closed => simp [InboundEvent.Takes, InboundEvent.Ends, after, get?_cancelAll]

/-- As long as no work begins under an identifier, what is registered under it stays or goes. -/
theorem get?_after_of_not_begun (he : ∀ handle, e ≠ .begun id handle) :
    (r.after e).table.get? id = none ∨ (r.after e).table.get? id = r.table.get? id := by
  cases e with
  | begun id' handle =>
    have hid : id ≠ id' := fun heq => he handle (heq ▸ rfl)
    right
    rw [after, register, Table.get?_insert, if_neg hid]
    rfl
  | finished id' handle =>
    rw [after, get?_release]
    split <;> simp
  | cancelled c =>
    rw [after, get?_cancel]
    split <;> simp
  | fired handle reason => exact .inr rfl
  | closed => exact .inl rfl

/-- A request that ends before its work is over is signalled. -/
theorem isFired_after_of_ends (hlt : h.index < r.signals.all.length)
    (hget : r.table.get? id = some h) (hends : e.Ends id h) (hunfinished : e ≠ .finished id h) :
    ((r.after e).signal h).isFired = true := by
  cases e with
  | begun id' handle | fired handle reason => exact hends.elim
  | finished id' handle =>
    obtain ⟨rfl, rfl⟩ := hends
    exact absurd rfl hunfinished
  | cancelled c =>
    obtain rfl : c.id = id := hends
    exact isFired_cancel_self hget hlt c.reason
  | closed =>
    rw [after, signal_cancelAll_of_registered hlt hget]
    exact Signal.isFired_fire_self _ _

/-! ### Events one after the other -/

theorem Allocated.replay (hr : r.Allocated) (events : List InboundEvent) :
    (Registry.replay events r).Allocated := by
  induction events generalizing r with
  | nil => exact hr
  | cons e events ih => exact ih (hr.after e)

theorem lt_length_replay (hlt : h.index < r.signals.all.length) (events : List InboundEvent) :
    h.index < (replay events r).signals.all.length := by
  induction events generalizing r with
  | nil => exact hlt
  | cons e events ih => exact ih (lt_length_after hlt e)

theorem isFired_replay (hf : (r.signal h).isFired = true) (events : List InboundEvent) :
    ((replay events r).signal h).isFired = true := by
  induction events generalizing r with
  | nil => exact hf
  | cons e events ih => exact ih (isFired_after hf e)

/-- **A handle keeps its place** until one of the events takes it away. -/
theorem get?_replay_eq_some (hlt : h.index < r.signals.all.length) :
    (replay events r).table.get? id = some h ↔
      r.table.get? id = some h ∧ ∀ e ∈ events, ¬ e.Takes id h := by
  induction events generalizing r with
  | nil => simp [replay]
  | cons e events ih =>
    rw [replay, List.foldl_cons, ← replay, ih (lt_length_after hlt e), get?_after_eq_some hlt,
      List.forall_mem_cons, and_assoc]

theorem get?_replay_of_not_begun (hlatest : ∀ newer, .begun id newer ∉ events) :
    (replay events r).table.get? id = none ∨
      (replay events r).table.get? id = r.table.get? id := by
  induction events generalizing r with
  | nil => exact .inr rfl
  | cons e events ih =>
    have hlater : ∀ newer, .begun id newer ∉ events := fun newer hmem =>
      hlatest newer (List.mem_cons_of_mem e hmem)
    have he : ∀ newer, e ≠ .begun id newer := fun newer heq =>
      hlatest newer (heq ▸ List.mem_cons_self)
    rcases ih hlater (r := r.after e) with hnone | hsame
    · exact .inl hnone
    · exact (get?_after_of_not_begun he).imp hsame.trans hsame.trans

/-- **What has ended is not registered**, as long as its identifier is not used again. -/
theorem get?_replay_of_ends (hlt : h.index < r.signals.all.length)
    (hget : r.table.get? id = some h) (hlatest : ∀ newer, .begun id newer ∉ events)
    (hends : ∃ e ∈ events, e.Ends id h) : (replay events r).table.get? id = none := by
  obtain ⟨e, he, hends⟩ := hends
  refine (get?_replay_of_not_begun hlatest).resolve_right fun hsame => ?_
  exact ((get?_replay_eq_some hlt).1 (hsame.trans hget)).2 e he (.inl hends)

/-- **A request that ends before its work is over is signalled**, if its identifier is not used
before that. -/
theorem isFired_replay_of_ends (hlt : h.index < r.signals.all.length)
    (hget : r.table.get? id = some h) (hlatest : ∀ newer, .begun id newer ∉ events)
    (hunfinished : .finished id h ∉ events) (hends : ∃ e ∈ events, e.Ends id h) :
    ((replay events r).signal h).isFired = true := by
  induction events generalizing r with
  | nil => simp at hends
  | cons e events ih =>
    by_cases he : e.Ends id h
    · have hne : e ≠ .finished id h := fun heq => hunfinished (heq ▸ List.mem_cons_self)
      exact isFired_replay (isFired_after_of_ends hlt hget he hne) events
    · have hkept : ¬ e.Takes id h := by
        rintro (hends' | ⟨newer, rfl⟩)
        · exact he hends'
        · exact hlatest newer List.mem_cons_self
      refine ih (lt_length_after hlt e) ((get?_after_eq_some hlt).2 ⟨hget, hkept⟩)
        (fun newer hmem => hlatest newer (List.mem_cons_of_mem e hmem))
        (fun hmem => hunfinished (List.mem_cons_of_mem e hmem)) ?_
      obtain ⟨e', he', hends'⟩ := hends
      rcases List.mem_cons.1 he' with rfl | he'
      · exact absurd hends' he
      · exact ⟨e', he', hends'⟩

/-! ### The handle of new work -/

/-- New work is registered under its identifier, and under no other. -/
theorem Allocated.get?_begin (hr : r.Allocated) (id id' : RequestId) (handle : Handle) :
    (r.after (.begun id handle)).table.get? id' = some r.fresh.1 ↔ id' = id := by
  rw [Registry.after, register, Table.get?_insert]
  split
  · simp_all
  · rename_i hid
    refine ⟨fun hget => ?_, fun heq => absurd heq hid⟩
    exact absurd (hr id' _ hget) (Nat.lt_irrefl _)

theorem lt_length_begin (r : Registry) (id : RequestId) (handle : Handle) :
    r.fresh.1.index < (r.after (.begun id handle)).signals.all.length := by
  simp [after, register, fresh, Signals.fresh]

/-- The events name the handles that new work is given. -/
def Names : List InboundEvent → Registry → Prop
  | [], _ => True
  | e :: events, r => (∀ id handle, e = .begun id handle → handle = r.fresh.1) ∧
      Names events (r.after e)

theorem names_append {events' : List InboundEvent} :
    Names (events ++ events') r ↔ Names events r ∧ Names events' (replay events r) := by
  induction events generalizing r with
  | nil => simp [Names, replay]
  | cons e events ih => rw [List.cons_append, Names, ih, Names, and_assoc]; rfl

theorem names_singleton : Names [e] r ↔ ∀ id handle, e = .begun id handle → handle = r.fresh.1 := by
  simp [Names]

/-! ### The newest request under an identifier -/

/-- A handle that is registered after an event either was so before, or has just begun. -/
theorem begun_or_kept_of_get? (hr : r.Allocated) (names : Names [e] r)
    (hget : (r.after e).table.get? id = some h) :
    e = .begun id h ∨ r.table.get? id = some h ∧ ¬ e.Takes id h := by
  by_cases hbegun : ∃ newer, e = .begun id newer
  · obtain ⟨newer, rfl⟩ := hbegun
    obtain rfl : newer = r.fresh.1 := names_singleton.1 names id newer rfl
    rw [after, register, Table.get?_insert, if_pos rfl] at hget
    exact .inl (congrArg _ (Option.some.inj hget))
  · right
    rcases get?_after_of_not_begun (fun newer he => hbegun ⟨newer, he⟩) with hnone | hsame
    · rw [hget] at hnone
      cases hnone
    · have hold : r.table.get? id = some h := hsame.symm.trans hget
      exact (get?_after_eq_some (hr id h hold)).1 hget

/-- **An identifier stands for its newest request**, as long as nothing ends that. What was
registered at first is still there if no event has taken its place. -/
theorem get?_replay_iff_live (hr : r.Allocated) (names : Names events r) :
    (replay events r).table.get? id = some h ↔
      r.table.get? id = some h ∧ (∀ e ∈ events, ¬ e.Takes id h) ∨
        InboundEvent.Live events id h := by
  constructor
  · intro hget
    induction events generalizing r with
    | nil => exact .inl ⟨hget, by simp⟩
    | cons e events ih =>
      rcases ih (hr.after e) names.2 hget with ⟨hfirst, hkept⟩ | ⟨before, after, rfl, hlive⟩
      · rcases begun_or_kept_of_get? hr (names_singleton.2 names.1) hfirst with rfl | ⟨hold, he⟩
        · exact .inr ⟨[], events, rfl, fun newer hmem => hkept _ hmem (.inr ⟨newer, rfl⟩),
            fun e he hends => hkept e he (.inl hends)⟩
        · exact .inl ⟨hold, List.forall_mem_cons.2 ⟨he, hkept⟩⟩
      · exact .inr ⟨e :: before, after, rfl, hlive⟩
  · rintro (⟨hold, hkept⟩ | ⟨before, after, rfl, hlatest, hgoing⟩)
    · exact (get?_replay_eq_some (hr id h hold)).2 ⟨hold, hkept⟩
    · obtain ⟨-, hname, -⟩ := names_append.1 names
      obtain rfl := hname id h rfl
      rw [replay_append]
      refine (get?_replay_eq_some (lt_length_begin _ id _)).2 ⟨?_, ?_⟩
      · exact ((hr.replay before).get?_begin id id _).2 rfl
      · rintro e he (hends | ⟨newer, rfl⟩)
        · exact hgoing e he hends
        · exact hlatest newer he

end Registry
end Switchboard
