import Mathlib.Data.List.Induction
import Switchboard.Proofs.Cancel.Cells

/-!
# The first signal decides

`SignalUse` is what can be done with handles and a registry, in any order and any number of times. A
`Ledger` keeps account of it: of which signal each handle is, and which signal serves which request.
From the ledger alone one can tell which signals a use reaches (`Ledger.Reaches`).

Firing is the only way in which a signal changes, so what a signal is depends on the first use that
reached it and on nothing else (`Holding.signal_run`). That is said of the signals of the registry;
the two cells behind every handle hold the same (`Holding.runCells_eq`).
-/

namespace Switchboard

/-- What can be done with handles and a registry. A number stands for a handle that somebody has,
in the order in which they were obtained. With a number that no handle has, nothing is done. -/
inductive SignalUse
  | make
  | copy (k : Nat)
  | cancel (k : Nat) (reason : Option String)
  | fireToken (k : Nat)
  | register (id : RequestId) (k : Nat)
  | cancelRequest (id : RequestId) (reason : Option String)
  | unregister (id : RequestId)
  | release (id : RequestId) (k : Nat)
  | cancelAll (reason : Option String) (order : SourceOrder)

/-- The reason that a use gives. -/
def SignalUse.reason : SignalUse → Option String
  | cancel _ reason | cancelRequest _ reason | cancelAll reason _ => reason
  | make | copy _ | fireToken _ | register _ _ | unregister _ | release _ _ => none

/-! ### The account of what is done -/

/-- Which signals there are, and where. -/
structure Ledger where
  /-- How many signals have been made. -/
  made : Nat := 0
  /-- The signal of every handle that somebody has. -/
  held : List Handle := []
  /-- The signal that serves a request. -/
  serving : RequestId → Option Handle := fun _ => none

namespace Ledger

/-- Another signal serves a request, or none. -/
def assign (l : Ledger) (id : RequestId) (h : Option Handle) : Ledger :=
  { l with serving := fun id' => if id' = id then h else l.serving id' }

def after (l : Ledger) : SignalUse → Ledger
  | .make => { l with made := l.made + 1, held := l.held ++ [⟨l.made⟩] }
  | .copy k => { l with held := l.held ++ l.held[k]?.toList }
  | .cancel _ _ | .fireToken _ => l
  | .register id k => if l.held[k]?.isSome then l.assign id l.held[k]? else l
  | .cancelRequest id _ | .unregister id => l.assign id none
  | .release id k => if l.held[k]?.isSome ∧ l.serving id = l.held[k]? then l.assign id none else l
  | .cancelAll _ _ => { l with serving := fun _ => none }

/-- A use reaches a signal: somebody signals it through a handle that he has, or through a request
that it serves. -/
def Reaches (l : Ledger) : SignalUse → Handle → Prop
  | .cancel k _, h | .fireToken k, h => l.held[k]? = some h
  | .cancelRequest id _, h => l.serving id = some h
  | .cancelAll _ _, h => ∃ id, l.serving id = some h
  | .make, _ | .copy _, _ | .register _ _, _ | .unregister _, _ | .release _ _, _ => False

/-- The account of all uses. -/
def run (uses : List SignalUse) : Ledger :=
  uses.foldl after {}

theorem run_concat (uses : List SignalUse) (u : SignalUse) :
    run (uses ++ [u]) = (run uses).after u :=
  List.foldl_append

end Ledger

/-- Some of the uses reached a signal. -/
def Reached (uses : List SignalUse) (h : Handle) : Prop :=
  ∃ before u later, uses = before ++ u :: later ∧ (Ledger.run before).Reaches u h

/-- The first of the uses that reached a signal. -/
def FirstReached (uses : List SignalUse) (h : Handle) (u : SignalUse) : Prop :=
  ∃ before later, uses = before ++ u :: later ∧ (Ledger.run before).Reaches u h ∧
    ¬ Reached before h

/-! ### What is done -/

/-- A registry, and the handles that somebody has. -/
structure Holding (ρ χ : Type) where
  kept : ρ
  held : List χ := []

namespace Holding

variable {ρ χ ρ' χ' : Type}

/-- Does something with the registry. -/
def keep (f : ρ → ρ) (d : Holding ρ χ) : Holding ρ χ :=
  { d with kept := f d.kept }

/-- Does something with the registry and a handle, if there is one with this number. -/
def keepWith (k : Nat) (f : ρ → χ → ρ) (d : Holding ρ χ) : Holding ρ χ :=
  match d.held[k]? with
  | some h => { d with kept := f d.kept h }
  | none => d

def copy (k : Nat) (d : Holding ρ χ) : Holding ρ χ :=
  { d with held := d.held ++ d.held[k]?.toList }

/-- The registry and the handles after a use. -/
def after (d : Holding Registry Handle) : SignalUse → Holding Registry Handle
  | .make => ⟨d.kept.fresh.2, d.held ++ [d.kept.fresh.1]⟩
  | .copy k => d.copy k
  | .cancel k reason => d.keepWith k fun r h => r.fire h reason
  | .fireToken k => d.keepWith k fun r h => r.fire h none
  | .register id k => d.keepWith k fun r h => r.register id h
  | .cancelRequest id reason => d.keep fun r => (r.cancel id reason).2
  | .unregister id => d.keep fun r => (r.unregister id).2
  | .release id k => d.keepWith k fun r h => (r.release id h).2
  | .cancelAll reason _ => d.keep fun r => (r.cancelAll reason).2

/-- The cells and the sources after a use. -/
def afterCells (b : Holding Wiring Source) : SignalUse → Holding Wiring Source
  | .make => ⟨b.kept.fresh.2, b.held ++ [b.kept.fresh.1]⟩
  | .copy k => b.copy k
  | .cancel k reason => b.keepWith k fun w x => w.fire x reason
  | .fireToken k => b.keepWith k fun w x => w.fireToken x
  | .register id k => b.keepWith k fun w x => w.register id x
  | .cancelRequest id reason => b.keep fun w => (w.cancel id reason).2
  | .unregister id => b.keep fun w => (w.unregister id).2
  | .release id k => b.keepWith k fun w x => (w.release id x).2
  | .cancelAll reason order => b.keep fun w => (w.cancelAll reason order).2

/-- The registry and the handles after all uses. -/
def run (uses : List SignalUse) : Holding Registry Handle :=
  uses.foldl after { kept := {} }

/-- The cells and the sources after all uses. -/
def runCells (uses : List SignalUse) : Holding Wiring Source :=
  uses.foldl afterCells { kept := {} }

theorem run_concat (uses : List SignalUse) (u : SignalUse) :
    run (uses ++ [u]) = (run uses).after u :=
  List.foldl_append

/-- Whether the token of a handle has been fired. -/
def isCancelled (b : Holding Wiring Source) (k : Nat) : Bool :=
  b.held[k]?.any b.kept.cells.isCancelled

/-- What is in the slot of a handle. -/
def reason (b : Holding Wiring Source) (k : Nat) : Option String :=
  b.held[k]?.bind b.kept.cells.reason

/-! ### The cells hold what the signals say -/

/-- A registry with its signals laid out as cells, and the sources of the handles. -/
def cells (d : Holding Registry Handle) : Holding Wiring Source :=
  ⟨.of d.kept, d.held.map .of⟩

theorem keepWith_cells (d : Holding Registry Handle) (k : Nat) {f : Registry → Handle → Registry}
    {g : Wiring → Source → Wiring} (hfg : ∀ r h, g (.of r) (.of h) = .of (f r h)) :
    d.cells.keepWith k g = (d.keepWith k f).cells := by
  simp only [keepWith, cells, List.getElem?_map]
  cases d.held[k]? with
  | none => rfl
  | some h => simp [hfg]

theorem afterCells_cells (d : Holding Registry Handle) (u : SignalUse) :
    d.cells.afterCells u = (d.after u).cells := by
  cases u with
  | make => simp [afterCells, after, cells, Wiring.fresh_of]
  | copy k => simp [afterCells, after, cells, copy, Option.toList_map]
  | cancel k reason =>
    rw [afterCells, after]
    exact d.keepWith_cells k fun r h => Wiring.fire_of r h reason
  | fireToken k =>
    rw [afterCells, after]
    exact d.keepWith_cells k Wiring.fireToken_of
  | register id k =>
    rw [afterCells, after]
    exact d.keepWith_cells k fun r h => Wiring.register_of r id h
  | cancelRequest id reason => simp [afterCells, after, cells, keep, Wiring.cancel_of]
  | unregister id => simp [afterCells, after, cells, keep, Wiring.unregister_of]
  | release id k =>
    rw [afterCells, after]
    exact d.keepWith_cells k fun r h => congrArg Prod.snd (Wiring.release_of r id h)
  | cancelAll reason order => simp [afterCells, after, cells, keep, Wiring.cancelAll_of]

/-- **The cells hold what the signals say**, whatever is done. -/
theorem runCells_eq (uses : List SignalUse) : runCells uses = (run uses).cells := by
  induction uses using List.reverseRecOn with
  | nil => rfl
  | append_singleton uses u ih =>
    rw [run_concat, ← afterCells_cells, ← ih]
    exact List.foldl_append

/-! ### The registry is as the ledger says -/

/-- What a ledger says about a registry and handles. -/
def ledger (d : Holding Registry Handle) : Ledger where
  made := d.kept.signals.all.length
  held := d.held
  serving := fun id => d.kept.table.get? id

theorem ledger_after (d : Holding Registry Handle) (u : SignalUse) :
    (d.after u).ledger = d.ledger.after u := by
  cases u with
  | make => simp [after, ledger, Ledger.after, Registry.fresh, Signals.fresh]
  | copy k => rfl
  | cancel k reason | fireToken k =>
    cases hk : d.held[k]? <;>
      simp [after, keepWith, ledger, Ledger.after, hk, Registry.fire, Signals.length_fire]
  | register id k =>
    cases hk : d.held[k]? <;>
      simp [after, keepWith, ledger, Ledger.after, Ledger.assign, hk, Registry.register,
        Table.get?_insert]
  | cancelRequest id reason =>
    simp [after, keep, ledger, Ledger.after, Ledger.assign, Registry.length_signals_cancel,
      Registry.get?_cancel]
  | unregister id =>
    simp [after, keep, ledger, Ledger.after, Ledger.assign, Registry.unregister, Table.get?_erase]
  | release id k =>
    cases hk : d.held[k]? with
    | none => simp [after, keepWith, ledger, Ledger.after, hk]
    | some h =>
      by_cases hown : d.kept.table.get? id = some h <;>
        simp [after, keepWith, ledger, Ledger.after, Ledger.assign, hk, hown,
          Registry.signals_release, Registry.get?_release]
  | cancelAll reason order =>
    simp [after, keep, ledger, Ledger.after, Registry.length_signals_cancelAll,
      Registry.get?_cancelAll]

theorem ledger_run (uses : List SignalUse) : (run uses).ledger = .run uses := by
  induction uses using List.reverseRecOn with
  | nil => rfl
  | append_singleton uses u ih => rw [run_concat, ledger_after, ih, Ledger.run_concat]

end Holding

namespace Ledger

/-- Only signals that have been made are held, and serve requests. -/
structure Sound (l : Ledger) : Prop where
  held : ∀ h ∈ l.held, h.index < l.made
  serving : ∀ id h, l.serving id = some h → h.index < l.made

theorem Sound.assign {l : Ledger} (hl : l.Sound) (id : RequestId) {h : Option Handle}
    (hh : ∀ h' ∈ h, h'.index < l.made) : (l.assign id h).Sound := by
  refine ⟨hl.held, fun id' h' hserving => ?_⟩
  simp only [Ledger.assign] at hserving
  split at hserving
  · exact hh h' hserving
  · exact hl.serving id' h' hserving

theorem Sound.held_of_getElem? {l : Ledger} (hl : l.Sound) {k : Nat} {h : Handle}
    (hk : l.held[k]? = some h) : h.index < l.made :=
  hl.held h (List.mem_of_getElem? hk)

theorem Sound.after {l : Ledger} (hl : l.Sound) (u : SignalUse) : (l.after u).Sound := by
  cases u with
  | make =>
    refine ⟨fun h hh => ?_, fun id h hserving => Nat.lt_succ_of_lt (hl.serving id h hserving)⟩
    rcases List.mem_append.1 hh with hold | hnew
    · exact Nat.lt_succ_of_lt (hl.held h hold)
    · obtain rfl := List.mem_singleton.1 hnew
      exact Nat.lt_succ_self _
  | copy k =>
    refine ⟨fun h hh => ?_, hl.serving⟩
    rcases List.mem_append.1 hh with hold | hnew
    · exact hl.held h hold
    · exact hl.held_of_getElem? (Option.mem_toList.1 hnew)
  | cancel k reason | fireToken k => exact hl
  | register id k =>
    rw [Ledger.after]
    split
    · exact hl.assign id fun h hk => hl.held_of_getElem? hk
    · exact hl
  | cancelRequest id reason | unregister id => exact hl.assign id (by simp)
  | release id k =>
    rw [Ledger.after]
    split
    · exact hl.assign id (by simp)
    · exact hl
  | cancelAll reason order => exact ⟨hl.held, by simp [Ledger.after]⟩

theorem sound_run (uses : List SignalUse) : (run uses).Sound := by
  induction uses using List.reverseRecOn with
  | nil => exact ⟨by simp [run], by simp [run]⟩
  | append_singleton uses u ih =>
    rw [run_concat]
    exact ih.after u

theorem Sound.lt_of_reaches {l : Ledger} (hl : l.Sound) {u : SignalUse} {h : Handle}
    (hreach : l.Reaches u h) : h.index < l.made := by
  cases u with
  | make | copy k | register id k | unregister id | release id k => exact hreach.elim
  | cancel k reason | fireToken k => exact hl.held_of_getElem? hreach
  | cancelRequest id reason => exact hl.serving id h hreach
  | cancelAll reason order => exact hreach.elim fun id hid => hl.serving id h hid

/-- Handles keep their signals. -/
theorem held_after {l : Ledger} {k : Nat} {h : Handle} (hk : l.held[k]? = some h) (u : SignalUse) :
    (l.after u).held[k]? = some h := by
  obtain ⟨hlt, -⟩ := List.getElem?_eq_some_iff.1 hk
  cases u with
  | make | copy k' => exact (List.getElem?_append_left hlt).trans hk
  | cancel k' reason | fireToken k' => exact hk
  | cancelRequest id reason | unregister id | cancelAll reason order => exact hk
  | register id k' | release id k' =>
    rw [after]
    split <;> exact hk

theorem held_run {uses : List SignalUse} {k : Nat} {h : Handle}
    (hk : (run uses).held[k]? = some h) (later : List SignalUse) :
    (run (uses ++ later)).held[k]? = some h := by
  induction later using List.reverseRecOn with
  | nil => rwa [List.append_nil]
  | append_singleton later u ih =>
    rw [← List.append_assoc, run_concat]
    exact held_after ih u

end Ledger

/-! ### One use -/

theorem Signals.get_fireAll_of_not_mem {s : Signals} {h : Handle} {hs : List Handle} (hh : h ∉ hs)
    (reason : Option String) : (s.fireAll hs reason).get h = s.get h := by
  induction hs generalizing s with
  | nil => rfl
  | cons h' hs ih =>
    obtain ⟨hne, hrest⟩ := not_or.1 (mt List.mem_cons.2 hh)
    exact (ih hrest).trans (s.get_fire_of_ne h' h reason hne)

namespace Holding

variable {d : Holding Registry Handle} {u : SignalUse} {h : Handle}

/-- **A use that reaches a signal fires it**, with the reason that it gives, -/
theorem signal_after_of_reaches (hlt : h.index < d.kept.signals.all.length)
    (hreach : d.ledger.Reaches u h) :
    (d.after u).kept.signal h = (d.kept.signal h).fire u.reason := by
  cases u with
  | make | copy k | register id k | unregister id | release id k => exact hreach.elim
  | cancel k reason | fireToken k =>
    have hk : d.held[k]? = some h := hreach
    simp only [after, keepWith, hk]
    exact Signals.get_fire_self _ _ _ hlt
  | cancelRequest id reason =>
    have hid : d.kept.table.get? id = some h := hreach
    simp only [after, keep, Registry.cancel_of_registered hid]
    exact Signals.get_fire_self _ _ _ hlt
  | cancelAll reason order =>
    obtain ⟨id, hid⟩ := hreach
    exact Registry.signal_cancelAll_of_registered hlt hid reason

/-- and one that does not leaves it as it is. -/
theorem signal_after_of_not_reaches (hreach : ¬ d.ledger.Reaches u h) :
    (d.after u).kept.signal h = d.kept.signal h := by
  cases u with
  | make => exact Signals.get_fresh _ _
  | copy k | unregister id => rfl
  | register id k =>
    simp only [after, keepWith]
    split <;> rfl
  | release id k =>
    simp only [after, keepWith]
    split
    · rw [Registry.signal, Registry.signals_release, Registry.signal]
    · rfl
  | cancel k reason | fireToken k =>
    simp only [after, keepWith]
    split
    · rename_i h' hk
      have hne : h ≠ h' := by
        rintro rfl
        exact hreach hk
      exact Signals.get_fire_of_ne _ _ _ _ hne
    · rfl
  | cancelRequest id reason =>
    simp only [after, keep]
    cases hid : d.kept.table.get? id with
    | none => rw [Registry.cancel_of_not_registered hid]
    | some h' =>
      have hne : h ≠ h' := by
        rintro rfl
        exact hreach hid
      rw [Registry.cancel_of_registered hid]
      exact Signals.get_fire_of_ne _ _ _ _ hne
  | cancelAll reason order =>
    have habsent : h ∉ d.kept.table.toList.map Prod.snd := fun hmem =>
      hreach (Registry.mem_handles.1 hmem)
    exact Signals.get_fireAll_of_not_mem habsent reason

end Holding

/-! ### All uses -/

theorem reached_concat {uses : List SignalUse} {u : SignalUse} {h : Handle} :
    Reached (uses ++ [u]) h ↔ Reached uses h ∨ (Ledger.run uses).Reaches u h := by
  constructor
  · rintro ⟨before, v, later, heq, hreach⟩
    rcases List.eq_nil_or_concat later with rfl | ⟨later, w, rfl⟩
    · obtain ⟨rfl, hv⟩ := List.append_inj' heq rfl
      obtain rfl := List.singleton_inj.1 hv
      exact .inr hreach
    · rw [List.concat_eq_append, ← List.cons_append, ← List.append_assoc] at heq
      exact .inl ⟨before, v, later, (List.append_inj' heq rfl).1, hreach⟩
  · rintro (⟨before, v, later, rfl, hreach⟩ | hreach)
    · exact ⟨before, v, later ++ [u], by simp, hreach⟩
    · exact ⟨uses, u, [], rfl, hreach⟩

theorem FirstReached.reached {uses : List SignalUse} {u : SignalUse} {h : Handle}
    (hu : FirstReached uses h u) : Reached uses h := by
  obtain ⟨before, later, heq, hreach, -⟩ := hu
  exact ⟨before, u, later, heq, hreach⟩

theorem FirstReached.append {uses : List SignalUse} {u : SignalUse} {h : Handle}
    (hu : FirstReached uses h u) (later : List SignalUse) : FirstReached (uses ++ later) h u := by
  obtain ⟨before, after, rfl, hreach, hfirst⟩ := hu
  exact ⟨before, after ++ later, by simp, hreach, hfirst⟩

/-- Where nothing has reached a signal, the first use that does is still to come. -/
theorem length_le_of_not_reached {before later before' later' : List SignalUse} {u : SignalUse}
    {h : Handle} (heq : before ++ u :: later = before' ++ later')
    (hreach : (Ledger.run before).Reaches u h) (hnot : ¬ Reached before' h) :
    before'.length ≤ before.length := by
  refine Nat.le_of_not_lt fun hlt => hnot ?_
  have hwhole : before ++ [u] <+: before' ++ later' := ⟨later, by simpa using heq⟩
  have hlength : (before ++ [u]).length ≤ before'.length := by
    rw [List.length_append]
    exact hlt
  obtain ⟨rest, rfl⟩ := List.prefix_of_prefix_length_le hwhole (List.prefix_append _ _) hlength
  exact ⟨before, u, rest, by simp, hreach⟩

theorem FirstReached.unique {uses : List SignalUse} {u v : SignalUse} {h : Handle}
    (hu : FirstReached uses h u) (hv : FirstReached uses h v) : u = v := by
  obtain ⟨before, later, rfl, hreach, hfirst⟩ := hu
  obtain ⟨before', later', heq, hreach', hfirst'⟩ := hv
  have hlength : before.length = before'.length := Nat.le_antisymm
    (length_le_of_not_reached heq.symm hreach' hfirst) (length_le_of_not_reached heq hreach hfirst')
  exact (List.cons.inj (List.append_inj heq hlength).2).1

namespace Holding

variable {uses : List SignalUse} {u : SignalUse} {h : Handle}

theorem signal_run_concat_of_reaches (hreach : (Ledger.run uses).Reaches u h) :
    (run (uses ++ [u])).kept.signal h = ((run uses).kept.signal h).fire u.reason := by
  have hlt := (Ledger.sound_run uses).lt_of_reaches hreach
  rw [← ledger_run] at hlt hreach
  rw [run_concat, signal_after_of_reaches hlt hreach]

theorem signal_run_concat_of_not_reaches (hreach : ¬ (Ledger.run uses).Reaches u h) :
    (run (uses ++ [u])).kept.signal h = (run uses).kept.signal h := by
  rw [← ledger_run] at hreach
  rw [run_concat, signal_after_of_not_reaches hreach]

/-- **The first use that reached a signal decides what it is**; a signal that none has reached is
quiet. -/
theorem signal_run (uses : List SignalUse) (h : Handle) :
    (¬ Reached uses h ∧ (run uses).kept.signal h = .quiet) ∨
      ∃ u, FirstReached uses h u ∧ (run uses).kept.signal h = .fired u.reason := by
  induction uses using List.reverseRecOn with
  | nil =>
    have hnone : ¬ Reached [] h := by
      rintro ⟨before, u, later, heq, -⟩
      simp at heq
    exact .inl ⟨hnone, rfl⟩
  | append_singleton uses u ih =>
    by_cases hreach : (Ledger.run uses).Reaches u h
    · rw [signal_run_concat_of_reaches hreach]
      rcases ih with ⟨hnot, hquiet⟩ | ⟨v, hv, hfired⟩
      · exact .inr ⟨u, ⟨uses, [], rfl, hreach, hnot⟩, by rw [hquiet]; rfl⟩
      · exact .inr ⟨v, hv.append _, by rw [hfired]; rfl⟩
    · rw [signal_run_concat_of_not_reaches hreach]
      rcases ih with ⟨hnot, hquiet⟩ | ⟨v, hv, hfired⟩
      · exact .inl ⟨fun hreached => (reached_concat.1 hreached).elim hnot hreach, hquiet⟩
      · exact .inr ⟨v, hv.append _, hfired⟩

theorem exists_firstReached (hreached : Reached uses h) : ∃ u, FirstReached uses h u := by
  rcases signal_run uses h with ⟨hnot, -⟩ | ⟨u, hu, -⟩
  · exact absurd hreached hnot
  · exact ⟨u, hu⟩

theorem signal_run_of_firstReached (hu : FirstReached uses h u) :
    (run uses).kept.signal h = .fired u.reason := by
  rcases signal_run uses h with ⟨hnot, -⟩ | ⟨v, hv, hfired⟩
  · exact absurd hu.reached hnot
  · rw [hfired, hv.unique hu]

theorem isFired_run_iff : ((run uses).kept.signal h).isFired = true ↔ Reached uses h := by
  constructor
  · intro hfired
    by_contra hnot
    rcases signal_run uses h with ⟨-, hquiet⟩ | ⟨u, hu, -⟩
    · rw [hquiet] at hfired
      cases hfired
    · exact hnot hu.reached
  · intro hreached
    obtain ⟨u, hu⟩ := exists_firstReached hreached
    rw [signal_run_of_firstReached hu]
    rfl

/-- A signal that has been reached stays what it is. -/
theorem signal_run_append_of_reached (hreached : Reached uses h) (later : List SignalUse) :
    (run (uses ++ later)).kept.signal h = (run uses).kept.signal h := by
  obtain ⟨u, hu⟩ := exists_firstReached hreached
  rw [signal_run_of_firstReached hu, signal_run_of_firstReached (hu.append later)]

/-! ### What the cells of a handle hold -/

theorem held_run_eq (uses : List SignalUse) : (run uses).held = (Ledger.run uses).held :=
  congrArg Ledger.held (ledger_run uses)

theorem isCancelled_runCells {k : Nat} (hk : (Ledger.run uses).held[k]? = some h) :
    (runCells uses).isCancelled k = ((run uses).kept.signal h).isFired := by
  simp only [runCells_eq, isCancelled, cells, List.getElem?_map, held_run_eq, hk]
  exact Cells.isCancelled_of _ _

theorem reason_runCells {k : Nat} (hk : (Ledger.run uses).held[k]? = some h) :
    (runCells uses).reason k = ((run uses).kept.signal h).reason := by
  simp only [runCells_eq, reason, cells, List.getElem?_map, held_run_eq, hk]
  exact Cells.reason_of _ _

/-- **The first signal fixes what a handle says, for good.** After any uses of handles and copies,
of bare tokens and of a registry, whose close goes through its requests in any order: a handle is
cancelled exactly if a use has reached its signal, and its reason is that of the first use that has,
whatever was there later. Without a cancellation there is no reason. Copies agree; nothing that is
done later changes the state or the reason of a cancelled handle; a use that does not reach the
signal of a handle, whether it is cancelled or not, changes nothing of it. The signal that the
registry keeps says the same as the two cells. -/
theorem first_signal_decides (uses : List SignalUse) {k : Nat} {h : Handle}
    (hk : (Ledger.run uses).held[k]? = some h) :
    ((runCells uses).isCancelled k = true ↔ Reached uses h) ∧
    ((runCells uses).isCancelled k = true →
      ∃ u, FirstReached uses h u ∧ (runCells uses).reason k = u.reason) ∧
    (∀ u, FirstReached uses h u → (runCells uses).reason k = u.reason) ∧
    ((runCells uses).reason k ≠ none → (runCells uses).isCancelled k = true) ∧
    (∀ j, (Ledger.run uses).held[j]? = some h →
      (runCells uses).isCancelled j = (runCells uses).isCancelled k ∧
        (runCells uses).reason j = (runCells uses).reason k) ∧
    (∀ later, (runCells uses).isCancelled k = true →
      (runCells (uses ++ later)).isCancelled k = true ∧
        (runCells (uses ++ later)).reason k = (runCells uses).reason k) ∧
    (∀ u, ¬ (Ledger.run uses).Reaches u h →
      (runCells (uses ++ [u])).isCancelled k = (runCells uses).isCancelled k ∧
        (runCells (uses ++ [u])).reason k = (runCells uses).reason k) ∧
    (run uses).held[k]? = some h ∧
      (runCells uses).isCancelled k = ((run uses).kept.signal h).isFired ∧
      (runCells uses).reason k = ((run uses).kept.signal h).reason := by
  have hcancelled := isCancelled_runCells hk
  have hreason := reason_runCells hk
  have hreached : (runCells uses).isCancelled k = true ↔ Reached uses h := by
    rw [hcancelled, isFired_run_iff]
  have hfirst : ∀ u, FirstReached uses h u → (runCells uses).reason k = u.reason := by
    intro u hu
    rw [hreason, signal_run_of_firstReached hu]
    rfl
  refine ⟨hreached, ?_, hfirst, ?_, ?_, ?_, ?_, held_run_eq uses ▸ hk, hcancelled, hreason⟩
  · intro hc
    obtain ⟨u, hu⟩ := exists_firstReached (hreached.1 hc)
    exact ⟨u, hu, hfirst u hu⟩
  · rw [hcancelled, hreason]
    cases (run uses).kept.signal h with
    | quiet => exact fun hr => absurd rfl hr
    | fired r => exact fun _ => rfl
  · intro j hj
    exact ⟨(isCancelled_runCells hj).trans hcancelled.symm, (reason_runCells hj).trans hreason.symm⟩
  · intro later hc
    have hkept := signal_run_append_of_reached (hreached.1 hc) later
    have hk' := Ledger.held_run hk later
    rw [isCancelled_runCells hk', reason_runCells hk', hkept, ← hcancelled, ← hreason]
    exact ⟨hc, rfl⟩
  · intro u hnot
    have hkept := signal_run_concat_of_not_reaches hnot
    have hk' := Ledger.held_run hk [u]
    rw [isCancelled_runCells hk', reason_runCells hk', hkept, hcancelled, hreason]
    exact ⟨rfl, rfl⟩

/-- A copy's token is fired, and then the handle is cancelled with a reason: there is none. -/
theorem first_signal_decides_bare_token :
    (Ledger.run [.make, .copy 0, .fireToken 1, .cancel 0 (some "late")]).held[0]? = some ⟨0⟩ ∧
      (runCells [.make, .copy 0, .fireToken 1, .cancel 0 (some "late")]).isCancelled 0 = true ∧
      (runCells [.make, .copy 0, .fireToken 1, .cancel 0 (some "late")]).reason 0 = none := by
  have hnot : ¬ Reached [.make, .copy 0] ⟨0⟩ := fun hreached =>
    absurd (isFired_run_iff.2 hreached) (by decide)
  have hfirst : FirstReached [.make, .copy 0, .fireToken 1, .cancel 0 (some "late")] ⟨0⟩
      (.fireToken 1) := ⟨[.make, .copy 0], [.cancel 0 (some "late")], rfl, rfl, hnot⟩
  have hdecides := first_signal_decides
    [.make, .copy 0, .fireToken 1, .cancel 0 (some "late")] (k := 0) (h := ⟨0⟩) rfl
  exact ⟨rfl, hdecides.1.2 hfirst.reached, hdecides.2.2.1 _ hfirst⟩

end Holding
end Switchboard
