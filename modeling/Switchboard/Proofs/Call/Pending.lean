import Switchboard.Call.Pending

/-!
# Every pending call has one fate

An entry of the table of pending calls waits from its registration on, until the first event that
concerns its identifier: it is handed back, by whoever takes it off the table or by a drain, or it
is replaced by a later registration (`PendingCalls.Fate`). So the fate of an entry is read off what
happens after its registration.

Over any uses of the table, the entries that wait are what is on the table
(`PendingCalls.Run.toList_eq`), and the entries whose fate is to be handed back are what was handed
back, one for one (`PendingCalls.Run.perm_handed`). Entries that are replaced are in neither.
-/

namespace Switchboard
namespace PendingCalls

open scoped List

/-- What is done to the table, with what it hands back. -/
inductive Event
  | registered (id : RequestId) (c : Call)
  | completed (id : RequestId) (taken : Option Call)
  | cancelled (id : RequestId) (taken : Option Call)
  | drained (taken : List (RequestId × Call))

/-- How an entry comes off the table. -/
inductive Fate
  | handedBack
  /-- Its identifier was used again; nobody gets it. -/
  | replaced
deriving DecidableEq

variable {p : PendingCalls} {t : List Event} {e : Event} {id : RequestId} {c : Call}

namespace Event

/-- The entry that is registered. -/
def registering? : Event → Option (RequestId × Call)
  | registered id c => some (id, c)
  | completed _ _ | cancelled _ _ | drained _ => none

/-- The entries that are handed back. -/
def handed : Event → List (RequestId × Call)
  | registered _ _ => []
  | completed id taken | cancelled id taken => taken.toList.map fun c => (id, c)
  | drained taken => taken

/-- What becomes of an entry that waits under an identifier; nothing, if it goes on waiting. -/
def fate? (id : RequestId) : Event → Option Fate
  | registered k _ => if k = id then some .replaced else none
  | completed k _ | cancelled k _ => if k = id then some .handedBack else none
  | drained _ => some .handedBack

/-- The table after an event. -/
def apply (p : PendingCalls) : Event → PendingCalls
  | registered id c => p.register id c
  | completed id _ | cancelled id _ => p.erase id
  | drained _ => .empty

/-- The event hands back what it finds, a drain in any order. -/
def Fits (p : PendingCalls) : Event → Prop
  | registered _ _ => True
  | completed id taken | cancelled id taken => taken = p.get? id
  | drained taken => taken ~ p.toList

theorem toList_apply (p : PendingCalls) (e : Event) :
    (e.apply p).toList =
      p.toList.filter (fun x => e.fate? x.1 = none) ++ e.registering?.toList := by
  cases e with
  | registered id c =>
    have hkept : (p.erase id).entries =
        p.toList.filter fun x => (registered id c).fate? x.1 = none :=
      List.filter_congr fun x _ => by simp [fate?, eq_comm]
    rw [← hkept]
    rfl
  | completed id taken | cancelled id taken =>
    rw [registering?, Option.toList_none, List.append_nil]
    exact List.filter_congr fun x _ => by simp [fate?, eq_comm]
  | drained taken => simp [fate?, apply, registering?, Table.empty, Table.toList]

/-- Whoever asks for an identifier decides the fate of what is under it. -/
theorem filter_handedBack (p : PendingCalls) (id : RequestId) :
    (p.toList.filter fun x =>
        (if id = x.1 then some Fate.handedBack else none) = some .handedBack) =
      (p.get? id).toList.map fun c => (id, c) := by
  rw [← Table.filter_eq_toList]
  exact List.filter_congr fun x _ => by simp [eq_comm]

/-- The entries that an event hands back are those whose fate it is. -/
theorem perm_handed (hfits : e.Fits p) :
    e.handed ~ p.toList.filter fun x => e.fate? x.1 = some .handedBack := by
  cases e with
  | registered id c =>
    have hnone : (p.toList.filter fun x => (registered id c).fate? x.1 = some .handedBack) = [] :=
      List.filter_eq_nil_iff.mpr fun x _ => by simp [fate?]
    rw [hnone]
    exact .refl _
  | completed id taken | cancelled id taken =>
    obtain rfl : taken = p.get? id := hfits
    exact .of_eq (filter_handedBack p id).symm
  | drained taken =>
    have hall :
        (p.toList.filter fun x => (drained taken).fate? x.1 = some .handedBack) = p.toList :=
      List.filter_eq_self.mpr fun x _ => by simp [fate?]
    rw [hall]
    exact hfits

/-- Whoever takes an entry off the table gets it. -/
theorem mem_handed (hfits : e.Fits p) (hfate : e.fate? id = some .handedBack)
    (hget : p.get? id = some c) : (id, c) ∈ e.handed := by
  rw [(perm_handed hfits).mem_iff, List.mem_filter]
  exact ⟨Table.mem_entries.mpr hget, decide_eq_true hfate⟩

theorem eq_registered_of_replaced (hfate : e.fate? id = some .replaced) :
    ∃ c, e = .registered id c := by
  cases e with
  | registered k c =>
    by_cases hk : k = id
    · exact ⟨c, by rw [hk]⟩
    · simp [fate?, hk] at hfate
  | completed k taken => simp [fate?] at hfate
  | cancelled k taken => simp [fate?] at hfate
  | drained taken => simp [fate?] at hfate

end Event

/-! ### Histories -/

/-- What becomes of an entry over what happens after its registration: the first event that concerns
its identifier decides. -/
def fate? (id : RequestId) (later : List Event) : Option Fate :=
  later.findSome? (Event.fate? id)

/-- The entries of a history that have this fate; or else, those that wait. -/
def entries (fate : Option Fate) : List Event → List (RequestId × Call)
  | [] => []
  | e :: later =>
    (e.registering?.toList.filter fun x => fate? x.1 later = fate) ++ entries fate later

theorem fate?_concat (id : RequestId) (later : List Event) (e : Event) :
    fate? id (later ++ [e]) = (fate? id later).or (e.fate? id) := by
  rw [fate?, List.findSome?_append, ← fate?, List.findSome?_singleton]

/-- An identifier that is registered anew replaces the entry that waits. -/
theorem not_registered_of_fate? {later : List Event} (hfate : fate? id later = none) (c : Call) :
    .registered id c ∉ later := fun hmem => by
  have hnone := List.findSome?_eq_none_iff.mp hfate _ hmem
  simp [Event.fate?] at hnone

/-- Of two registrations under an identifier, one is the newer one. -/
theorem eq_or_mem_of_registered {before before' after after' : List Event} {c' : Call}
    (h : before ++ .registered id c :: after = before' ++ .registered id c' :: after') :
    after = after' ∨ .registered id c' ∈ after ∨ .registered id c ∈ after' := by
  rcases List.append_eq_append_iff.mp h with ⟨mid, -, hmid⟩ | ⟨mid, -, hmid⟩
  · cases mid with
    | nil => exact .inl (List.cons.inj hmid).2
    | cons e mid => simp [(List.cons.inj hmid).2]
  · cases mid with
    | nil => exact .inl (List.cons.inj hmid).2.symm
    | cons e mid => simp [(List.cons.inj hmid).2]

theorem mem_entries {fate : Option Fate} :
    (id, c) ∈ entries fate t ↔
      ∃ before after, t = before ++ .registered id c :: after ∧ fate? id after = fate := by
  induction t with
  | nil => simp [entries]
  | cons e later ih =>
    have hhead : (id, c) ∈ (e.registering?.toList.filter fun x => fate? x.1 later = fate) ↔
        e = .registered id c ∧ fate? id later = fate := by
      rw [List.mem_filter, decide_eq_true_iff]
      refine and_congr_left fun _ => ?_
      cases e <;> simp [Event.registering?, eq_comm]
    rw [entries, List.mem_append, hhead, ih]
    constructor
    · rintro (⟨rfl, hfate⟩ | ⟨before, after, rfl, hfate⟩)
      · exact ⟨[], later, rfl, hfate⟩
      · exact ⟨e :: before, after, rfl, hfate⟩
    · rintro ⟨before, after, hsplit, hfate⟩
      cases before with
      | nil =>
        obtain ⟨rfl, rfl⟩ := List.cons.inj hsplit
        exact .inl ⟨rfl, hfate⟩
      | cons e' before =>
        obtain ⟨rfl, rfl⟩ := List.cons.inj hsplit
        exact .inr ⟨before, after, rfl, hfate⟩

/-- What waits goes on waiting, unless the next event concerns it. -/
theorem entries_none_concat (t : List Event) (e : Event) :
    entries none (t ++ [e]) =
      (entries none t).filter (fun x => e.fate? x.1 = none) ++ e.registering?.toList := by
  induction t with
  | nil => cases e <;> rfl
  | cons e' t ih =>
    have hhead : (e'.registering?.toList.filter fun x => fate? x.1 (t ++ [e]) = none) =
        (e'.registering?.toList.filter fun x => fate? x.1 t = none).filter
          fun x => e.fate? x.1 = none := by
      rw [List.filter_filter]
      exact List.filter_congr fun x _ => by simp [fate?_concat, Bool.and_comm]
    rw [List.cons_append, entries, ih, entries, List.filter_append, List.append_assoc, hhead]

/-- What has a fate had it before, or waited for the event that decides it. -/
theorem entries_some_concat (f : Fate) (t : List Event) (e : Event) :
    entries (some f) (t ++ [e]) ~
      entries (some f) t ++ (entries none t).filter fun x => e.fate? x.1 = some f := by
  induction t with
  | nil => cases e <;> exact .refl _
  | cons e' t ih =>
    have hhead : (e'.registering?.toList.filter fun x => fate? x.1 (t ++ [e]) = some f) =
        (e'.registering?.toList.filter fun x => fate? x.1 t = some f) ++
          (e'.registering?.toList.filter fun x => fate? x.1 t = none).filter
            fun x => e.fate? x.1 = some f := by
      cases e'.registering? with
      | none => rfl
      | some x => cases hx : fate? x.1 t <;> simp [fate?_concat, hx, List.filter_cons]
    rw [List.cons_append, entries, entries, entries, List.filter_append, hhead, List.append_assoc,
      List.append_assoc]
    refine .append_left _ ?_
    exact (ih.append_left _).trans (List.perm_append_comm_assoc _ _ _)

/-- Every entry waits, or has one of the fates. -/
theorem perm_entries (t : List Event) :
    t.filterMap Event.registering? ~
      entries none t ++ entries (some .handedBack) t ++ entries (some .replaced) t := by
  induction t with
  | nil => exact .refl _
  | cons e t ih =>
    rw [List.filterMap_cons, entries, entries, entries]
    cases e.registering? with
    | none => exact ih
    | some x =>
      -- The first entry is also the first one of its fate.
      rcases hx : fate? x.1 t with _ | (_ | _)
      · simpa [hx] using ih
      · simpa [hx] using (ih.cons x).trans (by simpa using List.perm_middle.symm)
      · simpa [hx] using (ih.cons x).trans List.perm_middle.symm

/-! ### Runs -/

/-- Any uses of the table, with what they hand back, and the table after them. -/
inductive Run : List Event → PendingCalls → Prop
  | start : Run [] .empty
  | register {t : List Event} {p : PendingCalls} (run : Run t p) (id : RequestId) (c : Call) :
      Run (t ++ [.registered id c]) (p.register id c)
  | complete {t : List Event} {p : PendingCalls} (run : Run t p) (id : RequestId) :
      Run (t ++ [.completed id ((p.complete id).map Prod.fst)]) ((p.complete id).elim p Prod.snd)
  | cancel {t : List Event} {p : PendingCalls} (run : Run t p) (id : RequestId) :
      Run (t ++ [.cancelled id ((p.cancel id).map Prod.fst)]) ((p.cancel id).elim p Prod.snd)
  | drain {t : List Event} {p : PendingCalls} (run : Run t p) {taken : List (RequestId × Call)}
      (horder : taken ~ p.drain.1) : Run (t ++ [.drained taken]) p.drain.2

theorem map_fst_complete (p : PendingCalls) (id : RequestId) :
    (p.complete id).map Prod.fst = p.get? id := by
  rw [complete, Table.take, Option.map_map]
  exact Option.map_id_apply

theorem elim_snd_complete (p : PendingCalls) (id : RequestId) :
    (p.complete id).elim p Prod.snd = p.erase id := by
  rw [complete, Table.take]
  cases hget : p.get? id with
  | none => exact (Table.erase_of_get?_eq_none hget).symm
  | some c => rfl

namespace Run

/-- Whatever hands back what it finds is a use. -/
theorem event (run : Run t p) (hfits : e.Fits p) : Run (t ++ [e]) (e.apply p) := by
  cases e with
  | registered id c => exact run.register id c
  | completed id taken =>
    obtain rfl : taken = p.get? id := hfits
    have hrun := run.complete id
    rwa [map_fst_complete, elim_snd_complete] at hrun
  | cancelled id taken =>
    obtain rfl : taken = p.get? id := hfits
    have hrun := run.cancel id
    rwa [PendingCalls.cancel, map_fst_complete, elim_snd_complete] at hrun
  | drained taken => exact run.drain hfits

/-- Every use hands back what it finds. -/
@[elab_as_elim]
theorem event_induction {motive : ∀ t p, Run t p → Prop} (start : motive [] .empty .start)
    (step : ∀ t p (e : Event) (run : Run t p) (hfits : e.Fits p), motive t p run →
      motive (t ++ [e]) (e.apply p) (run.event hfits)) {t : List Event} {p : PendingCalls}
    (run : Run t p) : motive t p run := by
  induction run with
  | start => exact start
  | register run id c ih => exact step _ _ (.registered id c) run trivial ih
  | @complete _ p run id ih =>
    have hstep := step _ _ (.completed id _) run (map_fst_complete p id) ih
    simpa only [Event.apply, elim_snd_complete] using hstep
  | @cancel _ p run id ih =>
    have hstep := step _ _ (.cancelled id _) run (map_fst_complete p id) ih
    simpa only [Event.apply, PendingCalls.cancel, elim_snd_complete] using hstep
  | drain run horder ih => exact step _ _ (.drained _) run horder ih

/-- **What waits is what is on the table.** -/
theorem toList_eq (run : Run t p) : p.toList = entries none t := by
  induction run using event_induction with
  | start => rfl
  | step t p e _ _ ih => rw [Event.toList_apply, ih, entries_none_concat]

/-- **Everything that is taken off the table is handed back, once.** -/
theorem perm_handed (run : Run t p) : t.flatMap Event.handed ~ entries (some .handedBack) t := by
  induction run using event_induction with
  | start => exact .refl _
  | step t p e run hfits ih =>
    rw [List.flatMap_append, List.flatMap_singleton]
    refine (ih.append (Event.perm_handed hfits)).trans ?_
    rw [run.toList_eq]
    exact (entries_some_concat _ t e).symm

/-- What a run does at each of its events. -/
theorem exists_before (run : Run t p) {pre post : List Event} (ht : t = pre ++ e :: post) :
    ∃ p', Run pre p' ∧ e.Fits p' := by
  induction run using event_induction generalizing post with
  | start => simp at ht
  | step t p e' run hfits ih =>
    rcases List.eq_nil_or_concat post with rfl | ⟨post, last, rfl⟩
    · obtain ⟨rfl, hlast⟩ := List.append_inj' ht rfl
      obtain rfl : e' = e := List.singleton_inj.mp hlast
      exact ⟨p, run, hfits⟩
    · rw [List.concat_eq_append, ← List.cons_append, ← List.append_assoc] at ht
      exact ih (List.append_inj' ht rfl).1

/-- After a drain nothing waits. -/
theorem eq_empty (run : Run t p) {pre : List Event} {taken : List (RequestId × Call)}
    (ht : t = pre ++ [.drained taken]) : p = .empty := by
  have hnone : entries none t = [] := by
    rw [ht, entries_none_concat]
    simp [Event.fate?, Event.registering?]
  exact Table.ext (run.toList_eq.trans hnone)

/-- Under an identifier is the call of its entry that waits. -/
theorem get?_iff (run : Run t p) :
    p.get? id = some c ↔
      ∃ before after, t = before ++ .registered id c :: after ∧ fate? id after = none := by
  rw [← Table.mem_entries, ← mem_entries, ← run.toList_eq]
  rfl

/-- Under an identifier is the newest entry, or nothing. -/
theorem get?_newest (run : Run t p) {before after : List Event}
    (ht : t = before ++ .registered id c :: after) (hnewest : ∀ c', .registered id c' ∉ after) :
    p.get? id = if fate? id after = none then some c else none := by
  split
  · next hfate => exact run.get?_iff.mpr ⟨before, after, ht, hfate⟩
  · next hfate =>
    refine Option.eq_none_iff_forall_ne_some.mpr fun c' hget => hfate ?_
    obtain ⟨before', after', ht', hfate'⟩ := run.get?_iff.mp hget
    rcases eq_or_mem_of_registered (ht.symm.trans ht') with rfl | hmem | hmem
    · exact hfate'
    · exact absurd hmem (hnewest c')
    · exact absurd hmem (not_registered_of_fate? hfate' c)

/-- Nothing is there that was not registered. -/
theorem get?_of_not_registered (run : Run t p) (hnew : ∀ c, .registered id c ∉ t) :
    p.get? id = none := by
  refine Option.eq_none_iff_forall_ne_some.mpr fun c hget => hnew c ?_
  obtain ⟨before, after, rfl, -⟩ := run.get?_iff.mp hget
  exact List.mem_append_right _ List.mem_cons_self

/-- An entry goes to the first event that concerns it. -/
theorem exists_fate (run : Run t p) {before after : List Event} {f : Fate}
    (ht : t = before ++ .registered id c :: after) (hfate : fate? id after = some f) :
    ∃ mid e rest, after = mid ++ e :: rest ∧ fate? id mid = none ∧ e.fate? id = some f ∧
      (f = .handedBack → (id, c) ∈ e.handed) := by
  obtain ⟨mid, e, rest, rfl, he, hmid⟩ := List.findSome?_eq_some_iff.mp hfate
  have hquiet : fate? id mid = none := List.findSome?_eq_none_iff.mpr hmid
  refine ⟨mid, e, rest, rfl, hquiet, he, ?_⟩
  rintro rfl
  rw [← List.cons_append, ← List.append_assoc] at ht
  obtain ⟨p', run', hfits⟩ := run.exists_before ht
  exact Event.mem_handed hfits he (run'.get?_iff.mpr ⟨before, mid, rfl, hquiet⟩)

end Run

/-- What a history of the table, and the table after it, say of every entry. -/
structure Accounts (t : List Event) (p : PendingCalls) : Prop where
  /-- What was ever registered waits, was handed back or was replaced, one for one. -/
  registered : t.filterMap Event.registering? ~
    entries none t ++ entries (some .handedBack) t ++ entries (some .replaced) t
  waiting : p.toList ~ entries none t
  /-- Nothing is handed back twice, or without having been registered. -/
  handedBack : t.flatMap Event.handed ~ entries (some .handedBack) t
  /-- Each entry is at the end under its identifier, or the first event that concerns it hands it
  back, or that event is another registration. -/
  each : ∀ before id c after, t = before ++ .registered id c :: after →
    fate? id after = none ∧ p.get? id = some c ∨
    fate? id after = some .handedBack ∧ (∃ mid e rest,
      after = mid ++ e :: rest ∧ fate? id mid = none ∧ (id, c) ∈ e.handed) ∨
    fate? id after = some .replaced ∧ (∃ mid c' rest,
      after = mid ++ .registered id c' :: rest ∧ fate? id mid = none)
  /-- Whoever asks for an identifier gets its newest entry if that one waits, and nothing else. -/
  answered : ∀ pre id taken post,
    t = pre ++ .completed id taken :: post ∨ t = pre ++ .cancelled id taken :: post →
      (∀ before c after, pre = before ++ .registered id c :: after →
        (∀ c', .registered id c' ∉ after) →
          taken = if fate? id after = none then some c else none) ∧
      ((∀ c, .registered id c ∉ pre) → taken = none)
  /-- A drain hands back all that waits, each identifier once. -/
  drained : ∀ pre taken post, t = pre ++ .drained taken :: post →
    taken ~ entries none pre ∧ (taken.map Prod.fst).Nodup ∧ (post = [] → p = .empty)
  /-- The size is that of the identifiers under which an entry waits. -/
  counted : ∃ ids : List RequestId, ids.Nodup ∧ p.size = ids.length ∧
    ∀ id, id ∈ ids ↔ p.contains id = true

/-- **The table neither loses nor duplicates an entry.** Whatever is done to it, every entry that
was ever registered waits at the end, was handed back once, or was replaced while it waited; whoever
asks for an identifier gets its newest entry, if no one did before (`Accounts`). -/
theorem Run.every_entry_once (run : Run t p) : Accounts t p where
  registered := perm_entries t
  waiting := .of_eq run.toList_eq
  handedBack := run.perm_handed
  each before id c after ht := by
    rcases hfate : fate? id after with _ | (_ | _)
    · exact .inl ⟨rfl, run.get?_iff.mpr ⟨before, after, ht, hfate⟩⟩
    · obtain ⟨mid, e, rest, hafter, hmid, -, hhanded⟩ := run.exists_fate ht hfate
      exact .inr (.inl ⟨rfl, mid, e, rest, hafter, hmid, hhanded rfl⟩)
    · obtain ⟨mid, e, rest, hafter, hmid, he, -⟩ := run.exists_fate ht hfate
      obtain ⟨c', rfl⟩ := Event.eq_registered_of_replaced he
      exact .inr (.inr ⟨rfl, mid, c', rest, hafter, hmid⟩)
  answered pre id taken post ht := by
    obtain ⟨p', run', rfl⟩ : ∃ p', Run pre p' ∧ taken = p'.get? id :=
      ht.elim run.exists_before run.exists_before
    exact ⟨fun _ _ _ => run'.get?_newest, run'.get?_of_not_registered⟩
  drained pre taken post ht := by
    obtain ⟨p', run', htaken⟩ := run.exists_before ht
    have hkeys : taken.map Prod.fst ~ p'.keys := List.Perm.map _ htaken
    exact ⟨run'.toList_eq ▸ htaken, hkeys.nodup_iff.mpr p'.nodup,
      fun hpost => run.eq_empty (hpost ▸ ht)⟩
  counted := ⟨p.keys, p.nodup, (List.length_map _).symm, fun _ => Table.contains_iff.symm⟩

/-- An identifier is used twice, and the newer call is handed back; asking again yields nothing. It
is used once more, and a drain hands back what waits then, in another order. -/
theorem every_entry_once_reused :
    ∃ (t : List Event) (p : PendingCalls), Run t p ∧
      (t.flatMap Event.handed).map (fun x => (x.1, x.2.spec.method)) =
        [(.text "dup", "second"), (.number 1, "fourth"), (.text "dup", "third")] ∧
      (entries (some .replaced) t).map (fun x => (x.1, x.2.spec.method)) =
        [(.text "dup", "first")] ∧
      (t.filterMap Event.registering?).length = 4 ∧
      p = .empty := by
  let call (method : String) : Call := { spec := { method } }
  let dup : RequestId := .text "dup"
  have run : Run _ _ :=
    (((((Run.start.register dup (call "first")).register dup (call "second")).complete dup).cancel
      dup).register dup (call "third")).register (.number 1) (call "fourth")
  have drained : Run _ _ := run.drain (List.reverse_perm _)
  have haccounts := drained.every_entry_once
  obtain ⟨-, -, hempty⟩ := haccounts.drained _ _ [] rfl
  exact ⟨_, _, drained, rfl, rfl, haccounts.registered.length_eq, hempty rfl⟩

end PendingCalls
end Switchboard
