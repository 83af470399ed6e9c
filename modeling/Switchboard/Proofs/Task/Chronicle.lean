import Mathlib.Data.List.Chain
import Mathlib.Data.List.Induction
import Switchboard.Proofs.Task.Changes

/-!
# One map of tasks and results

`replay` is what events make of one map, from identifiers to a task and perhaps a result of it. A
`Chronicle` is a list of events each of which fits what the ones before it have made of the map: a
task is created where there is none, and only a task that is there is moved, along the graph, given
a result or removed.

What a chronicle makes of one task is said through its life: the events behind its creation, up to
its removal. The task is there exactly as long as it lives (`Chronicle.isSome_replay_iff`), and
then it is what its moves have made of it, with the last result that was stored in its life
(`Chronicle.replay_life`).
-/

namespace Switchboard

/-- A task, with its result if it has one. -/
structure TaskEntry where
  task : Task
  result? : Option Json := none

/-! ### The graph -/

/-- The edges of the graph. A status that is not final has one to itself. -/
inductive TaskStatus.Edge : TaskStatus → TaskStatus → Prop
  | refresh {s : TaskStatus} (h : s = .working ∨ s = .inputRequired) : Edge s s
  | ask : Edge .working .inputRequired
  | resume : Edge .inputRequired .working
  | complete {s : TaskStatus} (h : s = .working ∨ s = .inputRequired) : Edge s .completed
  | fail {s : TaskStatus} (h : s = .working ∨ s = .inputRequired) : Edge s .failed
  | cancel {s : TaskStatus} (h : s = .working ∨ s = .inputRequired) : Edge s .cancelled

theorem TaskStatus.canBecome_iff_edge {s t : TaskStatus} : s.canBecome t = true ↔ s.Edge t := by
  constructor
  · intro h
    cases s with
    | working =>
      cases t with
      | working => exact .refresh (.inl rfl)
      | inputRequired => exact .ask
      | completed => exact .complete (.inl rfl)
      | failed => exact .fail (.inl rfl)
      | cancelled => exact .cancel (.inl rfl)
    | inputRequired =>
      cases t with
      | working => exact .resume
      | inputRequired => exact .refresh (.inr rfl)
      | completed => exact .complete (.inr rfl)
      | failed => exact .fail (.inr rfl)
      | cancelled => exact .cancel (.inr rfl)
    | completed | failed | cancelled => cases h
  · intro h
    cases h with
    | ask | resume => rfl
    | refresh h | complete h | fail h | cancel h => rcases h with rfl | rfl <;> rfl

/-- No edge leads out of a final status. -/
theorem TaskStatus.not_edge_of_isFinal {s t : TaskStatus} (hs : s.isFinal = true) : ¬ s.Edge t := by
  rw [← canBecome_iff_edge, canBecome_eq_not_isFinal, hs]
  decide

/-! ### Events and the map -/

namespace TaskEvent

/-- The task that an event is about. -/
def subject : TaskEvent → String
  | created t => t.id
  | moved id _ _ _ | stored id _ | removed id => id

/-- What an event makes of the entry that it is about. -/
def change (old : Option TaskEntry) : TaskEvent → Option TaskEntry
  | created t => some { task := t }
  | moved _ now status message =>
    old.map fun e => { e with task := e.task.moved now status message }
  | stored _ v => old.map fun e => { e with result? := some v }
  | removed _ => none

/-- What an event makes of the map. -/
def write (m : String → Option TaskEntry) (e : TaskEvent) : String → Option TaskEntry :=
  fun id => if id = e.subject then e.change (m id) else m id

/-- An event that fits what is there. -/
def Fits (m : String → Option TaskEntry) : TaskEvent → Prop
  | created t => m t.id = none ∧ t.status = .working ∧ t.statusMessage = none ∧
      t.lastUpdatedAt = t.createdAt
  | moved id _ status _ => ∃ e, m id = some e ∧ e.task.status.Edge status
  | stored id _ | removed id => (m id).isSome = true

/-- The result that is stored for a task. -/
def result? (id : String) : TaskEvent → Option Json
  | stored id' v => if id' = id then some v else none
  | created _ | moved _ _ _ _ | removed _ => none

/-- The status that a task is moved to. -/
def status? (id : String) : TaskEvent → Option TaskStatus
  | moved id' _ status _ => if id' = id then some status else none
  | created _ | stored _ _ | removed _ => none

/-- When a task is created or moved. -/
def time? : TaskEvent → Option Timestamp
  | created t => some t.createdAt
  | moved _ now _ _ => some now
  | stored _ _ | removed _ => none

def isCreated : TaskEvent → Bool
  | created _ => true
  | moved _ _ _ _ | stored _ _ | removed _ => false

def isRemoved : TaskEvent → Bool
  | removed _ => true
  | created _ | moved _ _ _ _ | stored _ _ => false

theorem write_of_ne {m : String → Option TaskEntry} {e : TaskEvent} {id : String}
    (h : e.subject ≠ id) : e.write m id = m id :=
  if_neg h.symm

theorem write_subject (m : String → Option TaskEntry) (e : TaskEvent) :
    e.write m e.subject = e.change (m e.subject) :=
  if_pos rfl

end TaskEvent

/-! ### One task -/

namespace Task

/-- What an event makes of a task. -/
def follow (t : Task) : TaskEvent → Task
  | .moved id now status message => if id = t.id then t.moved now status message else t
  | .created _ | .stored _ _ | .removed _ => t

variable {t : Task} {e : TaskEvent}

theorem follow_of_subject_ne (h : e.subject ≠ t.id) : t.follow e = t := by
  cases e with
  | moved id now status message => exact if_neg h
  | created | stored | removed => rfl

theorem result?_of_subject_ne (h : e.subject ≠ t.id) : e.result? t.id = none := by
  cases e with
  | stored id v => exact if_neg h
  | created | moved | removed => rfl

theorem status?_of_subject_ne (h : e.subject ≠ t.id) : e.status? t.id = none := by
  cases e with
  | moved id now status message => exact if_neg h
  | created | stored | removed => rfl

/-- What no event changes of a task. -/
structure Kept (t u : Task) : Prop where
  id : u.id = t.id
  createdAt : u.createdAt = t.createdAt
  ttl : u.ttl = t.ttl
  pollInterval : u.pollInterval = t.pollInterval

theorem kept_foldl (t : Task) (life : List TaskEvent) : t.Kept (life.foldl follow t) := by
  induction life using List.reverseRecOn with
  | nil => exact ⟨rfl, rfl, rfl, rfl⟩
  | append_singleton life e ih =>
    rw [List.foldl_concat]
    cases e with
    | moved id now status message =>
      rw [follow]
      split
      · exact ⟨ih.id, ih.createdAt, ih.ttl, ih.pollInterval⟩
      · exact ih
    | created | stored | removed => exact ih

/-- The status of a task is the last one that it was moved to. -/
theorem status_foldl (t : Task) (life : List TaskEvent) :
    (life.foldl follow t).status =
      (life.filterMap (TaskEvent.status? t.id)).getLast?.getD t.status := by
  induction life using List.reverseRecOn with
  | nil => rfl
  | append_singleton life e ih =>
    rw [List.foldl_concat, List.filterMap_append]
    have hid : (life.foldl follow t).id = t.id := (t.kept_foldl life).id
    cases e with
    | moved id now status message =>
      rw [follow, hid, List.filterMap_cons, TaskEvent.status?]
      by_cases h : id = t.id
      · simp [h, moved]
      · simpa [h] using ih
    | created | stored | removed => simpa [follow, TaskEvent.status?] using ih

/-- A task was last updated when it was created or at one of its moves. -/
theorem lastUpdatedAt_foldl (t : Task) (life : List TaskEvent) :
    (life.foldl follow t).lastUpdatedAt = t.lastUpdatedAt ∨
      (life.foldl follow t).lastUpdatedAt ∈ life.filterMap TaskEvent.time? := by
  induction life using List.reverseRecOn with
  | nil => exact .inl rfl
  | append_singleton life e ih =>
    rw [List.foldl_concat, List.filterMap_append]
    have hstays := ih.imp_right (List.mem_append_left ([e].filterMap TaskEvent.time?))
    cases e with
    | moved id now status message =>
      rw [follow]
      split
      · exact .inr (List.mem_append_right _ List.mem_cons_self)
      · exact hstays
    | created | stored | removed => exact hstays

end Task

/-! ### Chronicles -/

/-- What events make of the empty map. -/
def replay (h : List TaskEvent) : String → Option TaskEntry :=
  h.foldl TaskEvent.write fun _ => none

theorem replay_concat (h : List TaskEvent) (e : TaskEvent) :
    replay (h ++ [e]) = e.write (replay h) :=
  List.foldl_concat _ _ _ _

/-- Every event fits what the ones before it have left behind. -/
def Chronicle (h : List TaskEvent) : Prop :=
  ∀ before e after, h = before ++ e :: after → e.Fits (replay before)

namespace Chronicle

variable {h before life : List TaskEvent} {e : TaskEvent} {t : Task} {entry : TaskEntry}
  {id : String}

theorem nil : Chronicle [] := by
  intro before e after heq
  simp at heq

theorem concat (hc : Chronicle h) (fits : e.Fits (replay h)) : Chronicle (h ++ [e]) := by
  intro before e' after heq
  induction after using List.reverseRecOn with
  | nil =>
    obtain ⟨rfl, hlast⟩ := List.append_inj' heq rfl
    obtain rfl := List.singleton_inj.mp hlast
    exact fits
  | append_singleton after last _ =>
    rw [← List.cons_append, ← List.append_assoc] at heq
    exact hc before e' after (List.append_inj' heq rfl).1

theorem of_append {later : List TaskEvent} (hc : Chronicle (h ++ later)) : Chronicle h := by
  rintro before e after rfl
  exact hc before e (after ++ later) (by simp)

theorem fits_last (hc : Chronicle (h ++ [e])) : e.Fits (replay h) :=
  hc h e [] rfl

/-- What happens next, as long as a task lives. -/
theorem next_cases (hc : Chronicle (h ++ [e])) (there : replay h id = some entry)
    (lives : e ≠ .removed id) :
    e.subject ≠ id ∨
      (∃ now status message, e = .moved id now status message ∧ entry.task.status.Edge status) ∨
      ∃ v, e = .stored id v := by
  have fits := hc.fits_last
  by_cases hid : e.subject = id
  · subst hid
    right
    cases e with
    | created t => exact absurd (fits.1.symm.trans there) nofun
    | moved id now status message =>
      obtain ⟨entry', there', hedge⟩ := fits
      obtain rfl := Option.some.inj (there'.symm.trans there)
      exact .inl ⟨now, status, message, rfl, hedge⟩
    | stored id v => exact .inr ⟨v, rfl⟩
    | removed id => exact absurd rfl lives
  · exact .inl hid

/-- **What a life makes of a task**: its moves, and the last result that was stored. -/
theorem replay_life (hc : Chronicle (before ++ .created t :: life))
    (lives : .removed t.id ∉ life) :
    replay (before ++ .created t :: life) t.id =
      some ⟨life.foldl Task.follow t, (life.filterMap (TaskEvent.result? t.id)).getLast?⟩ := by
  induction life using List.reverseRecOn with
  | nil =>
    rw [replay_concat]
    exact TaskEvent.write_subject _ (.created t)
  | append_singleton life e ih =>
    rw [← List.cons_append, ← List.append_assoc] at hc ⊢
    have there := ih hc.of_append fun hmem => lives (List.mem_append_left _ hmem)
    have hid : (life.foldl Task.follow t).id = t.id := (t.kept_foldl life).id
    rw [replay_concat, List.foldl_concat, List.filterMap_append]
    rcases hc.next_cases there fun he => lives (by simp [he]) with
      hother | ⟨now, status, message, rfl, -⟩ | ⟨v, rfl⟩
    · rw [TaskEvent.write_of_ne hother, there, Task.follow_of_subject_ne (hid ▸ hother)]
      simp [Task.result?_of_subject_ne hother]
    · simp [TaskEvent.write, TaskEvent.subject, TaskEvent.change, there, Task.follow, hid,
        TaskEvent.result?]
    · simp [TaskEvent.write, TaskEvent.subject, TaskEvent.change, there, Task.follow,
        TaskEvent.result?]

/-- **The statuses of a task are a path through the graph.** -/
theorem isChain_life (hc : Chronicle (before ++ .created t :: life))
    (lives : .removed t.id ∉ life) :
    (t.status :: life.filterMap (TaskEvent.status? t.id)).IsChain TaskStatus.Edge := by
  induction life using List.reverseRecOn with
  | nil => exact .singleton _
  | append_singleton life e ih =>
    rw [← List.cons_append, ← List.append_assoc] at hc
    have hlives : .removed t.id ∉ life := fun hmem => lives (List.mem_append_left _ hmem)
    have there := hc.of_append.replay_life hlives
    have hchain := ih hc.of_append hlives
    rw [List.filterMap_append]
    rcases hc.next_cases there fun he => lives (by simp [he]) with
      hother | ⟨now, status, message, rfl, hedge⟩ | ⟨v, rfl⟩
    · simpa [Task.status?_of_subject_ne hother] using hchain
    · rw [t.status_foldl] at hedge
      rw [← List.cons_append]
      refine hchain.append (by simp [TaskEvent.status?]) ?_
      simpa [TaskEvent.status?, List.getLast?_cons] using hedge
    · rwa [List.filterMap_cons, TaskEvent.status?, List.filterMap_nil, List.append_nil]

/-- **A task is there as long as it lives.** -/
theorem isSome_replay_iff (hc : Chronicle h) :
    (replay h id).isSome = true ↔
      ∃ before t life, h = before ++ .created t :: life ∧ t.id = id ∧ .removed id ∉ life := by
  constructor
  · intro there
    induction h using List.reverseRecOn with
    | nil => cases there
    | append_singleton h e ih =>
      rw [replay_concat, TaskEvent.write] at there
      -- What was there before the last event is there after it, unless that removes it.
      have hbefore : (replay h id).isSome = true → e ≠ .removed id →
          ∃ before t life, h ++ [e] = before ++ .created t :: life ∧ t.id = id ∧
            .removed id ∉ life := by
        intro hsome hkept
        obtain ⟨before, t, life, rfl, hid, lives⟩ := ih hc.of_append hsome
        refine ⟨before, t, life ++ [e], by simp, hid, fun hmem => ?_⟩
        rcases List.mem_append.mp hmem with hmem | hmem
        · exact lives hmem
        · exact hkept (List.mem_singleton.mp hmem).symm
      split at there
      · next hid =>
        subst hid
        cases e with
        | created t => exact ⟨h, t, [], rfl, rfl, List.not_mem_nil⟩
        | moved id now status message =>
          exact hbefore (by simpa [TaskEvent.change] using there) nofun
        | stored id v => exact hbefore (by simpa [TaskEvent.change] using there) nofun
        | removed id => cases there
      · next hid =>
        refine hbefore there ?_
        rintro rfl
        exact hid rfl
  · rintro ⟨before, t, life, rfl, rfl, lives⟩
    rw [hc.replay_life lives]
    rfl

/-- Whatever is there has a life behind it. -/
theorem exists_life (hc : Chronicle h) (there : replay h id = some entry) :
    ∃ before t life, h = before ++ .created t :: life ∧ t.id = id ∧ .removed id ∉ life ∧
      entry = ⟨life.foldl Task.follow t, (life.filterMap (TaskEvent.result? id)).getLast?⟩ := by
  obtain ⟨before, t, life, rfl, rfl, lives⟩ :=
    hc.isSome_replay_iff.mp (Option.isSome_iff_exists.mpr ⟨entry, there⟩)
  exact ⟨before, t, life, rfl, rfl, lives,
    Option.some.inj (there.symm.trans (hc.replay_life lives))⟩

end Chronicle
end Switchboard
