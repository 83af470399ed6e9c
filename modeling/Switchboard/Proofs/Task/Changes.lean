import Switchboard.Proofs.Task.Minting
import Switchboard.Proofs.Task.Operations
import Switchboard.Task.Methods

/-!
# Runs of a task store

There are ten ways to use a store, but only five kinds of `TaskChange`: an update, a cancellation
and the method `tasks/cancel` are transitions (`TaskUse.apply_eq`).

What a change does is recorded as `TaskEvent`s, each about one task: a transition that is refused
is no event, and a sweep is one event for each task that it removes. `TaskStore.Run` is any uses of
a store, one after another, together with its events.
-/

namespace Switchboard

/-! ### Changes -/

/-- What may happen to a store. -/
inductive TaskChange
  | create (now : Timestamp) (ttl poll : Option Duration)
  | transition (now : Timestamp) (id : String) (status : TaskStatus) (message : Option String)
  | setResult (id : String) (v : Json)
  | delete (id : String)
  | sweep (now : Timestamp)

/-- The store after a change. -/
def TaskChange.apply (s : TaskStore) : TaskChange → TaskStore
  | create now ttl poll => (s.create now ttl poll).2
  | transition now id status message => (s.update now id status message).2
  | setResult id v => (s.setResult id v).2
  | delete id => (s.delete id).2
  | sweep now => (s.sweep now).2

theorem TaskStore.config_update (s : TaskStore) (now : Timestamp) (id : String)
    (status : TaskStatus) (message : Option String) :
    (s.update now id status message).2.config = s.config := by
  rw [update, transition]
  cases s.get? id with
  | none => rfl
  | some task =>
    dsimp only
    split <;> rfl

theorem TaskChange.config_apply (s : TaskStore) (c : TaskChange) :
    (c.apply s).config = s.config := by
  cases c with
  | create now ttl poll => exact s.mint_frame.1
  | transition now id status message => exact s.config_update now id status message
  | setResult id v =>
    simp only [TaskChange.apply, TaskStore.setResult]
    split <;> rfl
  | delete id => rfl
  | sweep now => rfl

/-- The store after changes, one after the other. -/
def TaskStore.after (s : TaskStore) (changes : List TaskChange) : TaskStore :=
  changes.foldl TaskChange.apply s

theorem TaskStore.config_after (s : TaskStore) (changes : List TaskChange) :
    (s.after changes).config = s.config := by
  induction changes generalizing s with
  | nil => rfl
  | cons c changes ih => exact (ih (c.apply s)).trans (TaskChange.config_apply s c)

@[simp] theorem TaskStore.pageSize_after (s : TaskStore) (changes : List TaskChange) :
    (s.after changes).pageSize = s.pageSize := by
  rw [pageSize, config_after, pageSize]

/-! ### Uses -/

/-- A use of a store. -/
inductive TaskUse
  | create (now : Timestamp) (ttl poll : Option Duration)
  | transition (now : Timestamp) (id : String) (status : TaskStatus) (message : Option String)
  | update (now : Timestamp) (id : String) (status : TaskStatus) (message : Option String)
  | cancel (now : Timestamp) (id : String)
  | cancelTask (now : Timestamp) (id : String)
  | setResult (id : String) (v : Json)
  | delete (id : String)
  | sweep (now : Timestamp)
  | list (cursor : Option String)
  /-- A request, for a task method or not. -/
  | answer (now : Timestamp) (r : Request)

namespace TaskUse

/-- The store after a use. -/
def apply (s : TaskStore) : TaskUse → TaskStore
  | create now ttl poll => (s.create now ttl poll).2
  | transition now id status message => (s.transition now id status message).2
  | update now id status message => (s.update now id status message).2
  | cancel now id => (s.cancel now id).2
  | cancelTask now id => (s.cancelTask now id).2
  | setResult id v => (s.setResult id v).2
  | delete id => (s.delete id).2
  | sweep now => (s.sweep now).2
  | list _ => s
  | answer now r => (s.answer? now r).elim s Prod.snd

/-- What a request asks to be changed. -/
def asked? (now : Timestamp) (r : Request) : Option TaskChange :=
  match TaskMethod.ofName? r.method with
  | some .create =>
    match TaskStore.readParams TaskStore.createParams r.params with
    | .ok (ttl, poll) => some (.create now ttl poll)
    | .error _ => none
  | some .cancel =>
    match TaskStore.readParams TaskStore.idParams r.params with
    | .ok id => some (.transition now id .cancelled none)
    | .error _ => none
  | some .get | some .list | some .result | none => none

/-- The change that a use is, if it may change the store at all. -/
def change? : TaskUse → Option TaskChange
  | create now ttl poll => some (.create now ttl poll)
  | transition now id status message | update now id status message =>
    some (.transition now id status message)
  | cancel now id | cancelTask now id => some (.transition now id .cancelled none)
  | setResult id v => some (.setResult id v)
  | delete id => some (.delete id)
  | sweep now => some (.sweep now)
  | list _ => none
  | answer now r => asked? now r

theorem answer_eq (s : TaskStore) (now : Timestamp) (r : Request) :
    (s.answer? now r).elim s Prod.snd = (asked? now r).elim s fun c => c.apply s := by
  rw [TaskStore.answer?, asked?]
  cases TaskMethod.ofName? r.method with
  | none => rfl
  | some method =>
    rw [Option.map_some, Option.elim_some]
    show (s.perform now method r.params).2 = _
    cases method with
    | create =>
      rw [TaskStore.perform_create]
      cases TaskStore.readParams TaskStore.createParams r.params <;> rfl
    | cancel =>
      rw [TaskStore.perform_cancel]
      cases TaskStore.readParams TaskStore.idParams r.params with
      | error e => rfl
      | ok id =>
        simp only [Option.elim_some, TaskChange.apply, TaskStore.update, TaskStore.cancel]
        rcases s.transition now id .cancelled none with ⟨_ | t, left⟩ <;> rfl
    | get | list | result => rfl

/-- **A use is one change at most.** -/
theorem apply_eq (s : TaskStore) (use : TaskUse) :
    use.apply s = use.change?.elim s fun c => c.apply s := by
  cases use with
  | answer now r => exact answer_eq s now r
  | _ => rfl

end TaskUse

/-! ### Events -/

/-- What happens to a task. -/
inductive TaskEvent
  | created (t : Task)
  /-- The task is moved to a status. -/
  | moved (id : String) (now : Timestamp) (status : TaskStatus) (message : Option String)
  /-- A result of the task is stored. -/
  | stored (id : String) (v : Json)
  | removed (id : String)

/-- What a change does, read off its answer. -/
def TaskChange.events (s : TaskStore) : TaskChange → List TaskEvent
  | create now ttl poll => [.created (s.newTask now ttl poll)]
  | transition now id status message =>
    if (s.update now id status message).1 then [.moved id now status message] else []
  | setResult id v => if (s.setResult id v).1 then [.stored id v] else []
  | delete id => if (s.delete id).1 then [.removed id] else []
  | sweep now => (s.expired now).map .removed

/-- What a use does. -/
def TaskUse.events (s : TaskStore) (use : TaskUse) : List TaskEvent :=
  use.change?.elim [] fun c => c.events s

/-- Any uses of a store, with what they do. The search for a new identifier ends only if one is
free, so a task is created only if there is room. -/
inductive TaskStore.Run (s₀ : TaskStore) : List TaskEvent → TaskStore → Prop
  | start : Run s₀ [] s₀
  | step {h : List TaskEvent} {s : TaskStore} (run : Run s₀ h s) (use : TaskUse)
      (room : ∀ now ttl poll, use.change? = some (.create now ttl poll) → s.HasRoom) :
      Run s₀ (h ++ use.events s) (use.apply s)

theorem TaskStore.Run.trans {s₀ s s' : TaskStore} {h h' : List TaskEvent} (run : Run s₀ h s)
    (later : Run s h' s') : Run s₀ (h ++ h') s' := by
  induction later with
  | start => rwa [List.append_nil]
  | step later use room ih =>
    rw [← List.append_assoc]
    exact ih.step use room

end Switchboard
