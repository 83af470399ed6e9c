import Mathlib.Data.List.Nodup
import Switchboard.Proofs.Cancel.Registry
import Switchboard.Proofs.Dialogue.Server

/-!
# The work on a server

A `Desk` is the work of one server and the cancellations that have reached it. `Desk.Attended` is
the invariant: what is registered is running work under a quiet signal, of which no cancellation
has arrived; once one arrives the signal fires, with the reason that the cancellation gives. It
holds on when work begins (`Attended.begin`), when a cancellation arrives (`Attended.hear`) and when
work ends (`Attended.retire`).
-/

namespace Switchboard

/-- The work on a server: what is registered, what runs, what has ended, and which cancellations
have arrived. -/
structure Desk where
  inbound : Registry
  running : List Work
  ended : List Ended
  cancels : List Cancellation

namespace Desk

variable {k : Desk}

/-- All work that was begun, whether it runs or has ended. -/
def works (k : Desk) : List Work :=
  k.running ++ k.ended.map Ended.work

/-- The handle that is registered under an identifier. -/
def handle? (k : Desk) (id : RequestId) : Option Handle :=
  k.inbound.table.get? id

/-- The signal that a piece of work looks at. -/
def signal (k : Desk) (w : Work) : Signal :=
  k.inbound.signal w.handle

/-- A cancellation has arrived for a piece of work, and its signal has fired. -/
def Stopped (k : Desk) (w : Work) : Prop :=
  ∃ c ∈ k.cancels, c.id = w.request.id ∧ k.signal w = .fired c.reason

theorem Stopped.mono {k' : Desk} {w : Work} (hs : k.Stopped w) (hc : k.cancels ⊆ k'.cancels)
    (hsignal : k'.signal w = k.signal w) : k'.Stopped w := by
  obtain ⟨c, hmem, hid, hfired⟩ := hs
  exact ⟨c, hc hmem, hid, hsignal.trans hfired⟩

/-- **What holds of the work on a server** until it closes. -/
structure Attended (k : Desk) : Prop where
  allocated : ∀ w ∈ k.works, w.handle.index < k.inbound.signals.all.length
  distinct : (k.works.map Work.handle).Nodup
  /-- A registered handle is that of running work. -/
  serves : ∀ id handle, k.handle? id = some handle →
    ∃ w ∈ k.running, w.request.id = id ∧ w.handle = handle
  /-- What is registered has not been cancelled. -/
  quiet : ∀ w ∈ k.running, k.handle? w.request.id = some w.handle →
    k.signal w = .quiet ∧ ∀ c ∈ k.cancels, c.id ≠ w.request.id
  running : ∀ w ∈ k.running, k.handle? w.request.id = some w.handle ∨ k.Stopped w
  ended : ∀ x ∈ k.ended, k.Stopped x.work ∨ k.signal x.work = .quiet ∧ x.outcome ≠ none

/-- A request arrives that a handler works on. -/
def begin (k : Desk) (r : Request) : Desk :=
  { k with
    inbound := k.inbound.fresh.2.register r.id k.inbound.fresh.1
    running := k.running ++ [⟨r, k.inbound.fresh.1⟩] }

/-- A cancellation arrives. -/
def hear (k : Desk) (c : Cancellation) : Desk :=
  { k with inbound := (k.inbound.cancel c.id c.reason).2, cancels := k.cancels ++ [c] }

/-- A piece of work ends. -/
def retire (k : Desk) (w : Work) (outcome : Option Outcome) : Desk :=
  { k with
    inbound := (k.inbound.release w.request.id w.handle).2
    running := k.running.filter fun v => v.handle ≠ w.handle
    ended := k.ended ++ [⟨w, outcome⟩] }

/-! ### A request arrives -/

theorem signal_begin (k : Desk) (r : Request) (w : Work) : (k.begin r).signal w = k.signal w :=
  Signals.get_fresh _ _

theorem handle?_begin (k : Desk) (r : Request) (id : RequestId) :
    (k.begin r).handle? id = if id = r.id then some k.inbound.fresh.1 else k.handle? id :=
  Table.get?_insert _ _ _ _

/-- **New work is attended to**, if its identifier is new. -/
theorem Attended.begin (hk : k.Attended) {r : Request} (hnew : ∀ w ∈ k.running, w.request.id ≠ r.id)
    (hcancels : ∀ c ∈ k.cancels, c.id ≠ r.id) : (k.begin r).Attended := by
  have hlength : (k.begin r).inbound.signals.all.length = k.inbound.signals.all.length + 1 := by
    simp [Desk.begin, Registry.register, Registry.fresh, Signals.fresh]
  have hindex : k.inbound.fresh.1.index = k.inbound.signals.all.length := rfl
  have hworks : (k.begin r).works.Perm (k.works ++ [⟨r, k.inbound.fresh.1⟩]) := by
    simp only [works, Desk.begin, List.append_assoc]
    exact List.perm_append_comm.append_left _
  have hstopped : ∀ w, k.Stopped w → (k.begin r).Stopped w := fun w hw =>
    hw.mono (List.Subset.refl _) (signal_begin k r w)
  have hfresh : ∀ w ∈ k.works, w.handle ≠ k.inbound.fresh.1 := fun w hw he => by
    have hlt := hk.allocated w hw
    rw [he, hindex] at hlt
    exact Nat.lt_irrefl _ hlt
  have hold : ∀ w ∈ k.running, (k.begin r).handle? w.request.id = k.handle? w.request.id :=
    fun w hw => by rw [handle?_begin, if_neg (hnew w hw)]
  constructor
  case allocated =>
    intro w hw
    rw [hlength]
    rcases List.mem_append.1 (hworks.mem_iff.1 hw) with hw | hw
    · exact Nat.lt_succ_of_lt (hk.allocated w hw)
    · obtain rfl := List.mem_singleton.1 hw
      exact Nat.lt_succ_self _
  case distinct =>
    rw [(hworks.map Work.handle).nodup_iff, List.map_append, List.nodup_append]
    refine ⟨hk.distinct, by simp, fun h hh h' hh' he => ?_⟩
    obtain ⟨w, hw, rfl⟩ := List.mem_map.1 hh
    obtain rfl := List.mem_singleton.1 hh'
    exact hfresh w hw he
  case serves =>
    intro id handle hget
    rw [handle?_begin] at hget
    split at hget
    · rename_i hid
      refine ⟨⟨r, k.inbound.fresh.1⟩, List.mem_append_right _ List.mem_cons_self, hid.symm, ?_⟩
      exact Option.some.inj hget
    · obtain ⟨w, hw, hid, hh⟩ := hk.serves id handle hget
      exact ⟨w, List.mem_append_left _ hw, hid, hh⟩
  case quiet =>
    intro w hw hget
    rw [signal_begin]
    rcases List.mem_append.1 hw with hw | hw
    · rw [hold w hw] at hget
      exact hk.quiet w hw hget
    · obtain rfl := List.mem_singleton.1 hw
      refine ⟨?_, hcancels⟩
      rw [signal, Registry.signal, Signals.get, List.getD_eq_getElem?_getD, hindex,
        List.getElem?_eq_none (Nat.le_refl _)]
      rfl
  case running =>
    intro w hw
    rcases List.mem_append.1 hw with hw | hw
    · rw [hold w hw]
      exact (hk.running w hw).imp_right (hstopped w)
    · obtain rfl := List.mem_singleton.1 hw
      left
      rw [handle?_begin, if_pos rfl]
  case ended =>
    intro x hx
    rw [signal_begin]
    exact (hk.ended x hx).imp_left (hstopped x.work)

/-! ### A cancellation arrives -/

theorem handle?_hear (k : Desk) (c : Cancellation) (id : RequestId) :
    (k.hear c).handle? id = if id = c.id then none else k.handle? id :=
  k.inbound.get?_cancel c.id c.reason id

/-- Only the signal of what is registered fires. -/
theorem signal_hear_of_ne {c : Cancellation} {w : Work} (hne : k.handle? c.id ≠ some w.handle) :
    (k.hear c).signal w = k.signal w := by
  rw [signal, hear]
  cases hget : k.inbound.table.get? c.id with
  | none => rw [Registry.cancel_of_not_registered hget, signal]
  | some handle =>
    rw [Registry.cancel_of_registered hget]
    refine Signals.get_fire_of_ne _ _ _ _ fun he => hne ?_
    rw [handle?, hget, he]

theorem signal_hear_of_eq {c : Cancellation} {w : Work} (he : k.handle? c.id = some w.handle)
    (hlt : w.handle.index < k.inbound.signals.all.length) :
    (k.hear c).signal w = (k.signal w).fire c.reason := by
  rw [signal, hear, Registry.cancel_of_registered he]
  exact Signals.get_fire_self _ _ _ hlt

/-- Running work is known by its handle. -/
theorem Attended.eq_of_handle (hk : k.Attended) {v w : Work} (hv : v ∈ k.works) (hw : w ∈ k.works)
    (he : v.handle = w.handle) : v = w :=
  List.inj_on_of_nodup_map hk.distinct hv hw he

/-- Work that runs and work that has ended have different handles. -/
theorem Attended.handle_ne (hk : k.Attended) {w : Work} {x : Ended} (hw : w ∈ k.running)
    (hx : x ∈ k.ended) : w.handle ≠ x.work.handle := by
  have hnd := hk.distinct
  rw [works, List.map_append, List.nodup_append] at hnd
  exact hnd.2.2 _ (List.mem_map.2 ⟨w, hw, rfl⟩) _
    (List.mem_map.2 ⟨x.work, List.mem_map.2 ⟨x, hx, rfl⟩, rfl⟩)

theorem mem_works_of_running {w : Work} (hw : w ∈ k.running) : w ∈ k.works :=
  List.mem_append_left _ hw

theorem mem_works_of_ended {x : Ended} (hx : x ∈ k.ended) : x.work ∈ k.works :=
  List.mem_append_right _ (List.mem_map.2 ⟨x, hx, rfl⟩)

/-- A signal that has fired keeps its reason. -/
theorem Stopped.hear {w : Work} (hs : k.Stopped w)
    (hlt : w.handle.index < k.inbound.signals.all.length) (c : Cancellation) :
    (k.hear c).Stopped w := by
  refine hs.mono (List.subset_append_left _ _) ?_
  obtain ⟨c', -, -, hfired⟩ := hs
  by_cases he : k.handle? c.id = some w.handle
  · rw [signal_hear_of_eq he hlt, hfired, Signal.fire]
  · rw [signal_hear_of_ne he]

/-- **A cancellation fires the signal of the work that it names.** -/
theorem Attended.hear (hk : k.Attended) (c : Cancellation) : (k.hear c).Attended := by
  have hlength : (k.hear c).inbound.signals.all.length = k.inbound.signals.all.length :=
    k.inbound.length_signals_cancel c.id c.reason
  constructor
  case allocated =>
    intro w hw
    rw [hlength]
    exact hk.allocated w hw
  case distinct => exact hk.distinct
  case serves =>
    intro id handle hget
    rw [handle?_hear] at hget
    split at hget
    · exact absurd hget (by simp)
    · exact hk.serves id handle hget
  case quiet =>
    intro w hw hget
    rw [handle?_hear] at hget
    split at hget
    · exact absurd hget (by simp)
    · rename_i hid
      obtain ⟨hquiet, hcancels⟩ := hk.quiet w hw hget
      constructor
      · rw [signal_hear_of_ne fun he => ?_, hquiet]
        obtain ⟨v, hv, hvid, hvh⟩ := hk.serves _ _ he
        have hvw := hk.eq_of_handle (mem_works_of_running hv) (mem_works_of_running hw) hvh
        exact hid (hvw ▸ hvid)
      · intro c' hc'
        rcases List.mem_append.1 hc' with hc' | hc'
        · exact hcancels c' hc'
        · rw [List.mem_singleton.1 hc']
          exact Ne.symm hid
  case running =>
    intro w hw
    have hlt := hk.allocated w (mem_works_of_running hw)
    rcases hk.running w hw with hget | hs
    · by_cases hid : w.request.id = c.id
      · right
        refine ⟨c, List.mem_append_right _ List.mem_cons_self, hid.symm, ?_⟩
        rw [signal_hear_of_eq (hid ▸ hget) hlt, (hk.quiet w hw hget).1, Signal.fire]
      · left
        rw [handle?_hear, if_neg hid]
        exact hget
    · exact .inr (hs.hear hlt c)
  case ended =>
    intro x hx
    rcases hk.ended x hx with hs | ⟨hquiet, ho⟩
    · exact .inl (hs.hear (hk.allocated _ (mem_works_of_ended hx)) c)
    · right
      refine ⟨?_, ho⟩
      rw [signal_hear_of_ne fun he => ?_, hquiet]
      obtain ⟨v, hv, -, hvh⟩ := hk.serves _ _ he
      exact hk.handle_ne hv hx hvh

/-! ### A piece of work ends -/

theorem handle?_retire (k : Desk) (w : Work) (outcome : Option Outcome) (id : RequestId) :
    (k.retire w outcome).handle? id =
      if id = w.request.id ∧ k.handle? id = some w.handle then none else k.handle? id := by
  rw [handle?, retire, Registry.get?_release]
  by_cases hid : id = w.request.id
  · rw [hid]
    rfl
  · rw [if_neg fun hand => hid hand.1, if_neg fun hand => hid hand.1]
    rfl

theorem signal_retire (k : Desk) (w v : Work) (outcome : Option Outcome) :
    (k.retire w outcome).signal v = k.signal v :=
  congrArg (Signals.get · v.handle) (k.inbound.signals_release w.request.id w.handle)

/-- **Work that ends is no longer registered**, and nothing else changes. -/
theorem Attended.retire (hk : k.Attended) {w : Work} (hw : w ∈ k.running)
    {outcome : Option Outcome} (ho : outcome = none → (k.signal w).isFired = true) :
    (k.retire w outcome).Attended := by
  have hsignals : (k.retire w outcome).inbound.signals = k.inbound.signals :=
    k.inbound.signals_release w.request.id w.handle
  have hstopped : ∀ v, k.Stopped v → (k.retire w outcome).Stopped v := fun v hv =>
    hv.mono (List.Subset.refl _) (signal_retire k w v outcome)
  have hworks : ((k.retire w outcome).works.map Work.handle).Subperm (k.works.map Work.handle) := by
    have hcons := Connection.map_cons_subperm Work.handle hw
    have hall := hcons.append (.refl ((k.ended.map Ended.work).map Work.handle))
    simp only [works, Desk.retire, List.map_append, List.map_cons, List.map_nil]
    refine List.Subperm.trans ?_ hall
    rw [← List.append_assoc]
    exact (List.perm_append_singleton _ _).subperm
  have hrunning : ∀ v ∈ (k.retire w outcome).running, v ∈ k.running ∧ v.handle ≠ w.handle :=
    fun v hv => by
      obtain ⟨hv, hne⟩ := List.mem_filter.1 hv
      exact ⟨hv, of_decide_eq_true hne⟩
  have hkept : ∀ v ∈ k.running, v.handle ≠ w.handle → k.handle? v.request.id = some v.handle →
      (k.retire w outcome).handle? v.request.id = some v.handle := fun v _ hne hget => by
    rw [handle?_retire, if_neg fun hand => hne (Option.some.inj (hget.symm.trans hand.2)), hget]
  constructor
  case allocated =>
    intro v hv
    rw [hsignals]
    obtain ⟨u, hu, he⟩ := List.mem_map.1 (hworks.subset (List.mem_map.2 ⟨v, hv, rfl⟩))
    rw [← he]
    exact hk.allocated u hu
  case distinct =>
    obtain ⟨l, hperm, hl⟩ := hworks
    exact hperm.nodup_iff.1 (hk.distinct.sublist hl)
  case serves =>
    intro id handle hget
    rw [handle?_retire] at hget
    split at hget
    · exact absurd hget (by simp)
    · rename_i hnot
      obtain ⟨v, hv, hid, hh⟩ := hk.serves id handle hget
      refine ⟨v, List.mem_filter.2 ⟨hv, decide_eq_true fun he => hnot ?_⟩, hid, hh⟩
      have hvw := hk.eq_of_handle (mem_works_of_running hv) (mem_works_of_running hw) he
      exact ⟨hvw ▸ hid.symm, by rw [hget, ← hh, he]⟩
  case quiet =>
    intro v hv hget
    obtain ⟨hv, hne⟩ := hrunning v hv
    rw [signal_retire]
    rw [handle?_retire] at hget
    split at hget
    · exact absurd hget (by simp)
    · exact hk.quiet v hv hget
  case running =>
    intro v hv
    obtain ⟨hv, hne⟩ := hrunning v hv
    exact (hk.running v hv).imp (hkept v hv hne) (hstopped v)
  case ended =>
    intro x hx
    rw [signal_retire]
    rcases List.mem_append.1 hx with hx | hx
    · exact (hk.ended x hx).imp_left (hstopped x.work)
    · obtain rfl := List.mem_singleton.1 hx
      rcases hk.running w hw with hget | hs
      · have hquiet := (hk.quiet w hw hget).1
        refine .inr ⟨hquiet, fun hnone => ?_⟩
        have hfired := ho hnone
        rw [hquiet] at hfired
        exact absurd hfired (by simp [Signal.isFired])
      · exact .inl (hstopped w hs)

end Desk
end Switchboard
