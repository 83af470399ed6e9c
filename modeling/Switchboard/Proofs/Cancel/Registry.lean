import Switchboard.Cancel.Registry

/-!
# What the operations of a registry do

One lemma for each part of a registry that an operation reads or writes: the signals, and the
handles that serve requests. A cancellation fires the signal of one handle only
(`Registry.cancel_of_registered`), and the end of work takes a handle off the table only if it is
its own (`Registry.get?_release`). The close fires what is registered, and nothing else
(`Registry.signal_cancelAll_of_registered`).
-/

namespace Switchboard

/-- A signal that is fired again keeps its reason. -/
theorem Signal.fire_of_isFired {s : Signal} (hf : s.isFired = true) (reason : Option String) :
    s.fire reason = s := by
  cases s with
  | quiet => cases hf
  | fired r => rfl

theorem Signal.isFired_fire_self (s : Signal) (reason : Option String) :
    (s.fire reason).isFired = true := by
  cases s <;> rfl

namespace Signals

variable (s : Signals) (h h' : Handle) (reason : Option String)

theorem get_fresh : s.fresh.2.get h = s.get h := by
  simp only [fresh, get, List.getD_eq_getElem?_getD]
  rcases Nat.lt_trichotomy h.index s.all.length with hlt | heq | hgt
  · rw [List.getElem?_append_left hlt]
  · rw [heq, List.getElem?_concat_length, List.getElem?_eq_none (Nat.le_refl _)]
    rfl
  · rw [List.getElem?_eq_none (by simp; omega), List.getElem?_eq_none (by omega)]

theorem get_fire_of_ne (hne : h' ≠ h) : (s.fire h reason).get h' = s.get h' := by
  have hi : h.index ≠ h'.index := fun he => hne (by cases h; cases h'; simp_all)
  simp only [fire, get, List.getD_eq_getElem?_getD, List.getElem?_modify, if_neg hi, id_map']

theorem get_fire_self (hlt : h.index < s.all.length) :
    (s.fire h reason).get h = (s.get h).fire reason := by
  simp only [fire, get, List.getD_eq_getElem?_getD, List.getElem?_modify, if_pos,
    List.getElem?_eq_getElem hlt, Option.getD_some]
  rfl

theorem length_fire : (s.fire h reason).all.length = s.all.length :=
  List.length_modify _ _ _

/-- A signal that has fired is not silenced. -/
theorem isFired_fire (hf : (s.get h').isFired = true) :
    ((s.fire h reason).get h').isFired = true := by
  by_cases he : h' = h
  · subst he
    have hlt : h'.index < s.all.length := Nat.lt_of_not_le fun hge => by
      rw [get, List.getD_eq_getElem?_getD, List.getElem?_eq_none hge] at hf
      cases hf
    rw [get_fire_self _ _ _ hlt]
    cases hs : s.get h' with
    | quiet => rw [hs] at hf; cases hf
    | fired r => rfl
  · rw [get_fire_of_ne _ _ _ _ he]
    exact hf

theorem isFired_fireAll {s : Signals} {h : Handle} (hf : (s.get h).isFired = true)
    (hs : List Handle) (reason : Option String) :
    ((s.fireAll hs reason).get h).isFired = true := by
  induction hs generalizing s with
  | nil => exact hf
  | cons h' hs ih => exact ih (s.isFired_fire h' h reason hf)

theorem length_fireAll (s : Signals) (hs : List Handle) (reason : Option String) :
    (s.fireAll hs reason).all.length = s.all.length := by
  induction hs generalizing s with
  | nil => rfl
  | cons h hs ih => exact (ih (s.fire h reason)).trans (s.length_fire h reason)

/-- Signals that are fired together: each of them, and no other. -/
theorem get_fireAll {s : Signals} {h : Handle} (hlt : h.index < s.all.length) (hs : List Handle)
    (reason : Option String) :
    (s.fireAll hs reason).get h = if h ∈ hs then (s.get h).fire reason else s.get h := by
  induction hs generalizing s with
  | nil => rfl
  | cons h' hs ih =>
    have hstep := ih (s := s.fire h' reason) (by rwa [length_fire])
    rw [fireAll, List.foldl_cons, ← fireAll, hstep]
    by_cases he : h = h'
    · subst he
      -- A second firing keeps the reason of the first one.
      rw [get_fire_self _ _ _ hlt, Signal.fire_of_isFired (Signal.isFired_fire_self _ _), ite_self,
        if_pos List.mem_cons_self]
    · rw [get_fire_of_ne _ _ _ _ he]
      simp [he]

end Signals

namespace Registry

variable {r : Registry} {id : RequestId} {h : Handle}

/-! ### Cancellation -/

theorem cancel_of_registered (hr : r.table.get? id = some h) (reason : Option String) :
    r.cancel id reason =
      (true, { signals := r.signals.fire h reason, table := r.table.erase id }) := by
  rw [cancel, Table.take, hr]
  rfl

theorem cancel_of_not_registered (hr : r.table.get? id = none) (reason : Option String) :
    r.cancel id reason = (false, r) := by
  rw [cancel, Table.take, hr]
  rfl

theorem get?_cancel (r : Registry) (id : RequestId) (reason : Option String) (id' : RequestId) :
    (r.cancel id reason).2.table.get? id' = if id' = id then none else r.table.get? id' := by
  cases hr : r.table.get? id with
  | some h =>
    rw [cancel_of_registered hr]
    exact Table.get?_erase _ _ _
  | none =>
    rw [cancel_of_not_registered hr]
    by_cases hid : id' = id
    · rw [if_pos hid, hid, hr]
    · rw [if_neg hid]

theorem length_signals_cancel (r : Registry) (id : RequestId) (reason : Option String) :
    (r.cancel id reason).2.signals.all.length = r.signals.all.length := by
  cases hr : r.table.get? id with
  | some h =>
    rw [cancel_of_registered hr]
    exact Signals.length_fire _ _ _
  | none => rw [cancel_of_not_registered hr]

theorem isFired_cancel_self (hr : r.table.get? id = some h)
    (hlt : h.index < r.signals.all.length) (reason : Option String) :
    ((r.cancel id reason).2.signal h).isFired = true := by
  rw [cancel_of_registered hr, signal, Signals.get_fire_self _ _ _ hlt]
  cases r.signals.get h <;> rfl

theorem isFired_cancel (hf : (r.signal h).isFired = true) (id : RequestId)
    (reason : Option String) : ((r.cancel id reason).2.signal h).isFired = true := by
  cases hr : r.table.get? id with
  | some h' =>
    rw [cancel_of_registered hr]
    exact Signals.isFired_fire _ _ _ _ hf
  | none =>
    rw [cancel_of_not_registered hr]
    exact hf

/-! ### The end of work -/

theorem signals_release (r : Registry) (id : RequestId) (h : Handle) :
    (r.release id h).2.signals = r.signals := by
  rw [release]
  split <;> rfl

theorem get?_release (r : Registry) (id : RequestId) (h : Handle) (id' : RequestId) :
    (r.release id h).2.table.get? id' =
      if id' = id ∧ r.table.get? id = some h then none else r.table.get? id' := by
  rw [release]
  by_cases hr : r.table.get? id = some h
  · rw [if_pos hr]
    simp only [hr, and_true]
    exact Table.get?_erase _ _ _
  · rw [if_neg hr, if_neg fun hand => hr hand.2]

/-! ### The close -/

theorem mem_handles : h ∈ r.table.toList.map Prod.snd ↔ ∃ id, r.table.get? id = some h := by
  simp [Table.toList, ← Table.mem_entries]

/-- **The close fires every handle that serves a request**, -/
theorem signal_cancelAll_of_registered (hlt : h.index < r.signals.all.length)
    (hr : r.table.get? id = some h) (reason : Option String) :
    (r.cancelAll reason).2.signal h = (r.signal h).fire reason := by
  rw [signal, cancelAll, Signals.get_fireAll hlt, if_pos (mem_handles.2 ⟨id, hr⟩), signal]

/-- and no other. -/
theorem signal_cancelAll_of_not_registered (hlt : h.index < r.signals.all.length)
    (hr : ∀ id, r.table.get? id ≠ some h) (reason : Option String) :
    (r.cancelAll reason).2.signal h = r.signal h := by
  have habsent : h ∉ r.table.toList.map Prod.snd := fun hmem =>
    (mem_handles.1 hmem).elim hr
  rw [signal, cancelAll, Signals.get_fireAll hlt, if_neg habsent, signal]

theorem length_signals_cancelAll (r : Registry) (reason : Option String) :
    (r.cancelAll reason).2.signals.all.length = r.signals.all.length :=
  Signals.length_fireAll _ _ _

theorem get?_cancelAll (r : Registry) (reason : Option String) (id : RequestId) :
    (r.cancelAll reason).2.table.get? id = none := rfl

/-! ### Handles that exist -/

/-- Every handle that serves a request is that of a signal. -/
def Allocated (r : Registry) : Prop :=
  ∀ id h, r.table.get? id = some h → h.index < r.signals.all.length

theorem Allocated.begin (hr : r.Allocated) (id : RequestId) :
    (r.fresh.2.register id r.fresh.1).Allocated := by
  intro id' h hget
  have hlength : (r.fresh.2.register id r.fresh.1).signals.all.length =
      r.signals.all.length + 1 := by
    simp [register, fresh, Signals.fresh]
  rw [register, fresh, Table.get?_insert] at hget
  rw [hlength]
  split at hget
  · rw [← Option.some.inj hget]
    exact Nat.lt_succ_self _
  · exact Nat.lt_succ_of_lt (hr id' h hget)

theorem Allocated.cancel (hr : r.Allocated) (id : RequestId) (reason : Option String) :
    (r.cancel id reason).2.Allocated := by
  intro id' h hget
  rw [get?_cancel] at hget
  rw [length_signals_cancel]
  exact hr id' h (Option.ite_none_left_eq_some.1 hget).2

theorem Allocated.release (hr : r.Allocated) (id : RequestId) (h : Handle) :
    (r.release id h).2.Allocated := by
  intro id' h' hget
  rw [get?_release] at hget
  rw [signals_release]
  exact hr id' h' (Option.ite_none_left_eq_some.1 hget).2

theorem allocated_cancelAll (r : Registry) (reason : Option String) :
    (r.cancelAll reason).2.Allocated := by
  intro id h hget
  exact absurd hget (by simp [get?_cancelAll])

theorem Allocated.fire (hr : r.Allocated) (h : Handle) (reason : Option String) :
    (r.fire h reason).Allocated := by
  intro id' h' hget
  rw [Registry.fire, Signals.length_fire]
  exact hr id' h' hget

end Registry
end Switchboard
