import Switchboard.Proofs.Task.Chronicle
import Switchboard.Proofs.Task.Expiry

/-!
# What a use leaves alone

A use says what it does through its events. A task that none of them is about is the same afterwards,
and so is its result (`TaskUse.get?_apply_of_subject_ne`, `TaskUse.result?_apply_of_subject_ne`).

A task that is `TaskStore.Live` can be moved; one that is not, because its status is final or because
it is not there, stays as it is or goes, and is never live again unless a task is created under its
identifier (`TaskUse.not_live_apply`).
-/

namespace Switchboard

/-! ### Tasks that can be moved -/

namespace TaskStore

variable {s : TaskStore} {id : String}

/-- The task is there, and its status is not final. -/
def Live (s : TaskStore) (id : String) : Prop :=
  ∃ t, s.get? id = some t ∧ t.status.isFinal = false

theorem update_of_live (hlive : s.Live id) (now : Timestamp) (status : TaskStatus)
    (message : Option String) :
    s.update now id status message = (true, s.moveTask now id status message) := by
  obtain ⟨t, hget, hfinal⟩ := hlive
  have hedge : t.status.canBecome status = true := by
    rw [TaskStatus.canBecome_eq_not_isFinal, hfinal]
    rfl
  rw [update, transition_of_edge now message hget hedge]
  rfl

theorem update_of_not_live (hdead : ¬ s.Live id) (now : Timestamp) (status : TaskStatus)
    (message : Option String) : s.update now id status message = (false, s) := by
  rw [update]
  cases hget : s.get? id with
  | none =>
    rw [transition_of_not_found now status message hget]
    rfl
  | some t =>
    have hedge : t.status.canBecome status = false := by
      rw [TaskStatus.canBecome_eq_not_isFinal]
      cases hfinal : t.status.isFinal with
      | true => rfl
      | false => exact absurd ⟨t, hget, hfinal⟩ hdead
    rw [transition_of_no_edge now message hget hedge]
    rfl

end TaskStore

/-! ### One change -/

namespace TaskChange

variable {s : TaskStore} {c : TaskChange} {id : String}

theorem get?_apply_of_subject_ne (h : ∀ e ∈ c.events s, e.subject ≠ id) :
    (c.apply s).get? id = s.get? id := by
  cases c with
  | create now ttl poll =>
    have hid : id ≠ s.mint.1 := (h _ List.mem_cons_self).symm
    rw [apply, TaskStore.get?_create, if_neg hid]
  | transition now id' status message =>
    rw [apply]
    by_cases hlive : s.Live id'
    · rw [events, TaskStore.update_of_live hlive] at h
      have hid : id ≠ id' := (h _ List.mem_cons_self).symm
      rw [TaskStore.update_of_live hlive, TaskStore.get?_moveTask, if_neg hid]
    · rw [TaskStore.update_of_not_live hlive]
  | setResult id' v => exact s.get?_setResult id' id v
  | delete id' =>
    rw [apply, TaskStore.get?_delete]
    split
    · rename_i hid
      subst hid
      cases hget : s.get? id with
      | none => rfl
      | some t =>
        have hthere : (s.delete id).1 = true := by simp [TaskStore.delete, TaskStore.contains, hget]
        rw [events, if_pos hthere] at h
        exact absurd rfl (h _ List.mem_cons_self)
    · rfl
  | sweep now =>
    rw [apply, TaskStore.get?_sweep]
    cases hget : s.get? id with
    | none => rfl
    | some t =>
      have hstays : t.isExpired now = false := by
        refine Bool.eq_false_iff.mpr fun hexpired => ?_
        have hmem : id ∈ s.expired now :=
          (TaskStore.mem_expired s).mpr ⟨t, hget, Task.isExpired_iff.mp hexpired⟩
        exact h (.removed id) (List.mem_map_of_mem hmem) rfl
      simp [hstays]

theorem result?_apply_of_subject_ne (hid : s.contains id = true)
    (h : ∀ e ∈ c.events s, e.subject ≠ id) : (c.apply s).result? id = s.result? id := by
  cases c with
  | create now ttl poll => exact s.result?_create now ttl poll id
  | transition now id' status message =>
    rw [apply]
    by_cases hlive : s.Live id'
    · rw [TaskStore.update_of_live hlive]
      rfl
    · rw [TaskStore.update_of_not_live hlive]
  | setResult id' v =>
    rw [apply]
    cases hthere : s.contains id' with
    | false => rw [TaskStore.setResult_of_not_contains v hthere]
    | true =>
      rw [events, s.setResult_fst, if_pos hthere] at h
      have hne : id ≠ id' := (h _ List.mem_cons_self).symm
      rw [TaskStore.result?_setResult _ _ hthere, if_neg hne]
  | delete id' =>
    have hne : id ≠ id' := by
      rintro rfl
      rw [events, if_pos (show (s.delete id).1 = true from hid)] at h
      exact h _ List.mem_cons_self rfl
    rw [apply, TaskStore.result?_delete, if_neg hne]
  | sweep now =>
    have hstays : id ∉ s.expired now := fun hmem =>
      h (.removed id) (List.mem_map_of_mem hmem) rfl
    rw [apply, TaskStore.result?_sweep, if_neg hstays]

/-- What is not live stays as it is, or goes. -/
theorem get?_apply_of_not_live (hdead : ¬ s.Live id)
    (hfresh : ∀ t, .created t ∈ c.events s → t.id ≠ id) :
    (c.apply s).get? id = none ∨ (c.apply s).get? id = s.get? id := by
  cases c with
  | create now ttl poll =>
    have hid : id ≠ s.mint.1 := (hfresh _ List.mem_cons_self).symm
    right
    rw [apply, TaskStore.get?_create, if_neg hid]
  | transition now id' status message =>
    right
    rw [apply]
    by_cases hlive : s.Live id'
    · have hid : id ≠ id' := by
        rintro rfl
        exact hdead hlive
      rw [TaskStore.update_of_live hlive, TaskStore.get?_moveTask, if_neg hid]
    · rw [TaskStore.update_of_not_live hlive]
  | setResult id' v =>
    right
    exact s.get?_setResult id' id v
  | delete id' =>
    rw [apply, TaskStore.get?_delete]
    split <;> simp
  | sweep now =>
    rw [apply, TaskStore.get?_sweep]
    cases s.get? id with
    | none => exact .inl rfl
    | some t => cases hexpired : t.isExpired now <;> simp [hexpired]

end TaskChange

/-! ### One use -/

namespace TaskUse

variable {s : TaskStore} {use : TaskUse} {id : String}

theorem get?_apply_of_subject_ne (h : ∀ e ∈ use.events s, e.subject ≠ id) :
    (use.apply s).get? id = s.get? id := by
  rw [apply_eq]
  rw [events] at h
  cases hc : use.change? with
  | none => rfl
  | some c =>
    rw [hc] at h
    exact TaskChange.get?_apply_of_subject_ne h

theorem result?_apply_of_subject_ne (hid : s.contains id = true)
    (h : ∀ e ∈ use.events s, e.subject ≠ id) : (use.apply s).result? id = s.result? id := by
  rw [apply_eq]
  rw [events] at h
  cases hc : use.change? with
  | none => rfl
  | some c =>
    rw [hc] at h
    exact TaskChange.result?_apply_of_subject_ne hid h

/-- **What is not live is never live again**, unless a task is created under its identifier. -/
theorem not_live_apply (hdead : ¬ s.Live id)
    (hfresh : ∀ t, .created t ∈ use.events s → t.id ≠ id) : ¬ (use.apply s).Live id := by
  rw [apply_eq]
  rw [events] at hfresh
  cases hc : use.change? with
  | none => exact hdead
  | some c =>
    rw [hc] at hfresh
    rintro ⟨t, hget, hfinal⟩
    rcases TaskChange.get?_apply_of_not_live hdead hfresh with hgone | hsame
    · rw [Option.elim_some, hgone] at hget
      cases hget
    · exact hdead ⟨t, hsame.symm.trans hget, hfinal⟩

/-- What an update does. -/
theorem events_update_of_live (hlive : s.Live id) (now : Timestamp) (status : TaskStatus)
    (message : Option String) :
    (update now id status message).events s = [.moved id now status message] := by
  rw [events, change?, Option.elim_some, TaskChange.events, TaskStore.update_of_live hlive]
  rfl

theorem events_update_of_not_live (hdead : ¬ s.Live id) (now : Timestamp) (status : TaskStatus)
    (message : Option String) : (update now id status message).events s = [] := by
  rw [events, change?, Option.elim_some, TaskChange.events, TaskStore.update_of_not_live hdead]
  rfl

end TaskUse
end Switchboard
