import Switchboard.Proofs.Task.Changes
import Switchboard.Proofs.Text.Order

/-!
# Listing a store page by page

A client that lists the tasks asks for the first page, and then for the page behind the cursor that
it was given, until it is given none. Between two requests anything may happen to the store:
`Listing` is such a listing, with the store that every request met.

Cursors are texts that the client hands back. What makes a listing work is that they lead back to
identifiers and that a page starts behind an identifier, whether the store still has it or not:
`Scan` is a listing with identifiers in place of cursors, and `Listing.scan` says that every listing
is one. The rest are inductions over `Scan`, each about what is left to list behind a bound.
-/

namespace Switchboard

/-! ### What is behind a bound -/

namespace Task

/-- The tasks behind an identifier; all of them, if there is none. -/
def behind : Option String → List Task → List Task
  | none, ts => ts
  | some b, ts => ts.filter fun t => b < t.id

/-- The identifier is behind the bound; without a bound, every identifier is. -/
def Behind (bound : Option String) (id : String) : Prop :=
  ∀ b ∈ bound, b < id

variable {bound : Option String} {ts : List Task}

theorem mem_behind {t : Task} : t ∈ behind bound ts ↔ t ∈ ts ∧ Behind bound t.id := by
  cases bound <;> simp [behind, Behind]

theorem InOrder.behind (h : InOrder ts) (bound : Option String) : InOrder (behind bound ts) := by
  cases bound with
  | none => exact h
  | some b => exact h.filter _

theorem Behind.trans {a id : String} (h : Behind bound a) (hid : a < id) : Behind bound id :=
  fun b hb => String.lt_trans (h b hb) hid

/-- What is behind a bound, cut behind one of its tasks. -/
theorem InOrder.cut {front rest : List Task} {t : Task} (h : InOrder ts)
    (hcut : Task.behind bound ts = front ++ t :: rest) :
    InOrder (front ++ [t]) ∧ (∀ u ∈ front, u.id < t.id) ∧ ∀ u ∈ rest, t.id < u.id := by
  have hbehind : InOrder (front ++ t :: rest) := hcut ▸ h.behind bound
  obtain ⟨hfront, hrest, hacross⟩ := List.pairwise_append.mp hbehind
  have hlast (u) (hu : u ∈ front) : u.id < t.id := hacross u hu t List.mem_cons_self
  refine ⟨List.pairwise_append.mpr ⟨hfront, List.pairwise_singleton _ _, fun u hu v hv => ?_⟩,
    hlast, (List.pairwise_cons.mp hrest).1⟩
  exact List.mem_singleton.mp hv ▸ hlast u hu

/-- Behind one of the tasks that are behind a bound are those that come after it. -/
theorem InOrder.behind_some {front rest : List Task} {t : Task} (h : InOrder ts)
    (hcut : Task.behind bound ts = front ++ t :: rest) : Task.behind (some t.id) ts = rest := by
  obtain ⟨-, hfront, hrest⟩ := h.cut hcut
  have hmem : t ∈ Task.behind bound ts := hcut ▸ List.mem_append_right front List.mem_cons_self
  have ht : Behind bound t.id := (mem_behind.mp hmem).2
  -- What is not behind the bound is not behind the task either, so the bound may cut first.
  have hfilter : Task.behind (some t.id) ts = Task.behind (some t.id) (Task.behind bound ts) := by
    cases bound with
    | none => rfl
    | some b =>
      simp only [Task.behind, List.filter_filter]
      refine List.filter_congr fun u hu => ?_
      have hb : t.id < u.id → b < u.id := (ht.trans · b rfl)
      simpa using hb
  rw [hfilter, hcut, Task.behind, List.filter_append, List.filter_eq_nil_iff.mpr,
    List.nil_append, List.filter_cons_of_neg, List.filter_eq_self.mpr]
  · exact fun u hu => decide_eq_true (hrest u hu)
  · simp
  · exact fun u hu => by simpa using String.lt_asymm (hfront u hu)

end Task

/-! ### Listings -/

/-- A request for a page: the store that it met, and the page that it was answered with. -/
structure Visit where
  store : TaskStore
  page : TaskPage

/-- A listing that goes on behind a cursor, up to the page that has none. -/
inductive Listing : TaskStore → Option String → List Visit → Prop
  | last {s : TaskStore} {cursor : Option String} {page : TaskPage}
      (hpage : s.page cursor = .ok page) (hcursor : page.nextCursor = none) :
      Listing s cursor [⟨s, page⟩]
  | next {s : TaskStore} {cursor : Option String} {page : TaskPage} {c : String}
      {visits : List Visit} (changes : List TaskChange)
      (hpage : s.page cursor = .ok page) (hcursor : page.nextCursor = some c)
      (hrest : Listing (s.after changes) (some c) visits) :
      Listing s cursor (⟨s, page⟩ :: visits)

/-- The tasks that a listing lists. -/
def listed (visits : List Visit) : List Task :=
  visits.flatMap fun v => v.page.tasks

/-! ### Pages -/

/-- How many pages so many tasks take; there is always a first one. -/
def pageCount (pageSize tasks : Nat) : Nat :=
  max 1 ((tasks + pageSize - 1) / pageSize)

theorem pageCount_of_le {k n : Nat} (hk : 0 < k) (hn : n ≤ k) : pageCount k n = 1 := by
  have hlt : (n + k - 1) / k < 2 := Nat.div_lt_of_lt_mul (by omega)
  unfold pageCount
  omega

theorem pageCount_add {k n : Nat} (hk : 0 < k) (hn : 0 < n) :
    pageCount k (k + n) = pageCount k n + 1 := by
  have hstep : (k + n + k - 1) / k = (n + k - 1) / k + 1 := by
    rw [← Nat.add_div_right _ hk]
    congr 1
    omega
  have hpos : 0 < (n + k - 1) / k := Nat.div_pos (by omega) hk
  unfold pageCount
  omega

namespace TaskStore

theorem pageSize_pos (s : TaskStore) : 0 < s.pageSize :=
  Nat.lt_of_lt_of_le Nat.one_pos (Nat.le_max_right _ _)

/-- The last page: all that is left fits on it. -/
theorem pageOf_of_le {s : TaskStore} {ts : List Task} (h : ts.length ≤ s.pageSize) :
    page.pageOf s ts = ⟨ts, none⟩ := by
  simp only [page.pageOf, List.take_of_length_le h, if_neg (Nat.not_lt.mpr h)]

/-- A page that is not the last one is full, and its cursor names the task at its end. -/
theorem pageOf_of_lt {s : TaskStore} {ts : List Task} (h : s.pageSize < ts.length) :
    ∃ front t rest, ts = front ++ t :: rest ∧ front.length + 1 = s.pageSize ∧ rest ≠ [] ∧
      page.pageOf s ts = ⟨front ++ [t], some (Cursor.ofId t.id)⟩ := by
  obtain ⟨n, hn⟩ := Nat.exists_eq_succ_of_ne_zero (Nat.ne_of_gt s.pageSize_pos)
  have hlt : n < ts.length := by omega
  have htake : ts.take s.pageSize = ts.take n ++ [ts[n]] := by
    rw [hn, Nat.succ_eq_add_one, ← List.take_concat_get hlt, List.concat_eq_append]
  have hlength : (ts.take n).length + 1 = s.pageSize := by
    rw [List.length_take]
    omega
  refine ⟨ts.take n, ts[n], ts.drop (n + 1), ?_, hlength, ?_, ?_⟩
  · rw [← List.drop_eq_getElem_cons hlt, List.take_append_drop]
  · rw [ne_eq, List.drop_eq_nil_iff]
    omega
  · simp only [page.pageOf, if_pos h, htake, List.getLast?_concat, Option.map_some]

/-- Every cursor that is handed out is that of a task. -/
theorem exists_of_nextCursor {s : TaskStore} {ts : List Task} {c : String}
    (h : (page.pageOf s ts).nextCursor = some c) : ∃ id, c = Cursor.ofId id := by
  rcases Nat.lt_or_ge s.pageSize ts.length with hlt | hle
  · obtain ⟨front, t, rest, -, -, -, hpage⟩ := pageOf_of_lt hlt
    rw [hpage] at h
    exact ⟨t.id, (Option.some.inj h).symm⟩
  · rw [pageOf_of_le hle] at h
    contradiction

/-- A request with the cursor of a task asks for the tasks behind it, kept or not. -/
theorem page_ofId (s : TaskStore) (bound : Option String) :
    s.page (bound.map Cursor.ofId) = .ok (page.pageOf s (Task.behind bound s.tasks)) := by
  cases bound with
  | none => rfl
  | some id =>
    have hbehind : s.table.behind id = s.tasks.filter fun t => id < t.id :=
      s.values_filter fun k => id < k
    simp only [page, Option.map_some, Cursor.toId?_ofId, Task.behind, hbehind]

/-- **What a request is answered with**: what is left behind the bound, if it fits on a page, and
else a full page, whose cursor leaves what comes after it. -/
theorem page_cases (s : TaskStore) (bound : Option String) :
    ((Task.behind bound s.tasks).length ≤ s.pageSize ∧
      s.page (bound.map Cursor.ofId) = .ok ⟨Task.behind bound s.tasks, none⟩) ∨
    ∃ front t rest, Task.behind bound s.tasks = front ++ t :: rest ∧
      front.length + 1 = s.pageSize ∧ rest ≠ [] ∧
      s.page (bound.map Cursor.ofId) = .ok ⟨front ++ [t], some (Cursor.ofId t.id)⟩ := by
  rw [page_ofId]
  rcases Nat.lt_or_ge s.pageSize (Task.behind bound s.tasks).length with hlt | hle
  · obtain ⟨front, t, rest, hcut, hfull, hmore, hpage⟩ := pageOf_of_lt hlt
    exact .inr ⟨front, t, rest, hcut, hfull, hmore, congrArg _ hpage⟩
  · exact .inl ⟨hle, congrArg _ (pageOf_of_le hle)⟩

/-- A cursor that one store hands out is one that any store takes. -/
theorem page_of_nextCursor {t : TaskStore} {cursor : Option String} {page : TaskPage} {c : String}
    (hpage : t.page cursor = .ok page) (hcursor : page.nextCursor = some c) (s : TaskStore) :
    ∃ page', s.page (some c) = .ok page' := by
  obtain ⟨ts, rfl⟩ : ∃ ts, page = TaskStore.page.pageOf t ts := by
    unfold TaskStore.page at hpage
    split at hpage
    · exact ⟨_, (Except.ok.inj hpage).symm⟩
    · split at hpage
      · exact ⟨_, (Except.ok.inj hpage).symm⟩
      · contradiction
  obtain ⟨id, rfl⟩ := exists_of_nextCursor hcursor
  exact ⟨_, s.page_ofId (some id)⟩

end TaskStore

/-! ### Identifiers in place of cursors -/

/-- A listing that goes on behind a bound. -/
inductive Scan : TaskStore → Option String → List Visit → Prop
  | last {s : TaskStore} {bound : Option String}
      (hfits : (Task.behind bound s.tasks).length ≤ s.pageSize) :
      Scan s bound [⟨s, ⟨Task.behind bound s.tasks, none⟩⟩]
  | next {s : TaskStore} {bound : Option String} {front rest : List Task} {t : Task}
      {visits : List Visit} (changes : List TaskChange)
      (hcut : Task.behind bound s.tasks = front ++ t :: rest)
      (hfull : front.length + 1 = s.pageSize) (hmore : rest ≠ [])
      (hrest : Scan (s.after changes) (some t.id) visits) :
      Scan s bound (⟨s, ⟨front ++ [t], some (Cursor.ofId t.id)⟩⟩ :: visits)

/-- **A listing goes on behind the tasks that its cursors name.** -/
theorem Listing.scan {s : TaskStore} {bound : Option String} {visits : List Visit}
    (h : Listing s (bound.map Cursor.ofId) visits) : Scan s bound visits := by
  generalize hbound : bound.map Cursor.ofId = cursor at h
  induction h generalizing bound with
  | @last s cursor page hpage hcursor =>
    subst hbound
    rcases s.page_cases bound with ⟨hfits, h⟩ | ⟨front, t, rest, hcut, hfull, hmore, h⟩
    · obtain rfl := Except.ok.inj (hpage.symm.trans h)
      exact .last hfits
    · obtain rfl := Except.ok.inj (hpage.symm.trans h)
      contradiction
  | @next s cursor page c visits changes hpage hcursor hrest ih =>
    subst hbound
    rcases s.page_cases bound with ⟨hfits, h⟩ | ⟨front, t, rest, hcut, hfull, hmore, h⟩
    · obtain rfl := Except.ok.inj (hpage.symm.trans h)
      contradiction
    · obtain rfl := Except.ok.inj (hpage.symm.trans h)
      exact .next changes hcut hfull hmore (ih hcursor)

@[simp] theorem listed_nil : listed [] = [] := rfl

@[simp] theorem listed_cons (v : Visit) (visits : List Visit) :
    listed (v :: visits) = v.page.tasks ++ listed visits := List.flatMap_cons

namespace Scan

variable {s : TaskStore} {bound : Option String} {visits : List Visit}

/-- The first request meets the store that the listing starts from. -/
theorem exists_cons (h : Scan s bound visits) : ∃ page rest, visits = ⟨s, page⟩ :: rest := by
  cases h with
  | last hfits => exact ⟨_, _, rfl⟩
  | next changes hcut hfull hmore hrest => exact ⟨_, _, rfl⟩

/-- Nothing is listed that is not behind the bound. -/
theorem behind_of_mem (h : Scan s bound visits) :
    ∀ t ∈ listed visits, Task.Behind bound t.id := by
  induction h with
  | last hfits => simpa using fun t ht => (Task.mem_behind.mp ht).2
  | @next s bound front rest t visits changes hcut hfull hmore hrest ih =>
    have hmem (u) (hu : u ∈ front ++ [t]) : Task.Behind bound u.id := by
      have hbehind : u ∈ Task.behind bound s.tasks := by
        rw [hcut, List.append_cons]
        exact List.mem_append_left rest hu
      exact (Task.mem_behind.mp hbehind).2
    intro u hu
    rw [listed_cons] at hu
    rcases List.mem_append.mp hu with hu | hu
    · exact hmem u hu
    · exact (hmem t (by simp)).trans (ih u hu t.id rfl)

/-- The pages, one behind the other, are in order. -/
theorem inOrder (h : Scan s bound visits) : Task.InOrder (listed visits) := by
  induction h with
  | @last s bound hfits => simpa using s.inOrder.behind bound
  | @next s bound front rest t visits changes hcut hfull hmore hrest ih =>
    obtain ⟨hpage, hfront, -⟩ := s.inOrder.cut hcut
    have hbehind (u) (hu : u ∈ listed visits) : t.id < u.id := hrest.behind_of_mem u hu t.id rfl
    refine List.pairwise_append.mpr ⟨hpage, ih, fun u hu v hv => ?_⟩
    rcases List.mem_append.mp hu with hu | hu
    · exact String.lt_trans (hfront u hu) (hbehind v hv)
    · exact List.mem_singleton.mp hu ▸ hbehind v hv

/-- A task that every request meets, and that is behind the bound, is listed. -/
theorem mem_of_contains (h : Scan s bound visits) {id : String}
    (hstays : ∀ v ∈ visits, v.store.contains id = true) (hid : Task.Behind bound id) :
    id ∈ (listed visits).map Task.id := by
  induction h with
  | @last s bound hfits =>
    obtain ⟨t, ht, rfl⟩ := TaskStore.contains_iff.mp (hstays _ List.mem_cons_self)
    refine List.mem_map_of_mem ?_
    simpa using Task.mem_behind.mpr ⟨ht, hid⟩
  | @next s bound front rest t visits changes hcut hfull hmore hrest ih =>
    obtain ⟨u, hu, rfl⟩ := TaskStore.contains_iff.mp (hstays _ List.mem_cons_self)
    have hmem : u ∈ (front ++ [t]) ++ rest :=
      List.append_cons front t rest ▸ hcut ▸ Task.mem_behind.mpr ⟨hu, hid⟩
    rw [listed_cons, List.map_append, List.mem_append]
    -- It is on this page, or behind its last task and so left to the pages after it.
    rcases List.mem_append.mp hmem with hu | hu
    · exact .inl (List.mem_map_of_mem hu)
    · have ht : t.id < u.id := (s.inOrder.cut hcut).2.2 u hu
      refine .inr (ih (fun v hv => hstays v (List.mem_cons_of_mem _ hv)) ?_)
      rintro _ ⟨⟩
      exact ht

/-- Every page but the last one is full. -/
theorem full_of_mem_dropLast (h : Scan s bound visits) :
    ∀ v ∈ visits.dropLast, v.page.tasks.length = s.pageSize := by
  induction h with
  | last hfits => simp
  | @next s bound front rest t visits changes hcut hfull hmore hrest ih =>
    obtain ⟨page, later, rfl⟩ := hrest.exists_cons
    rw [List.dropLast_cons_cons]
    intro v hv
    rcases List.mem_cons.mp hv with rfl | hv
    · simpa using hfull
    · rw [ih v hv, TaskStore.pageSize_after]

/-- As long as the tasks stay as they are, what is listed is what is behind the bound, on as many
pages as it takes. -/
theorem listed_of_unchanged (h : Scan s bound visits)
    (hsame : ∀ v ∈ visits, v.store.tasks = s.tasks) :
    listed visits = Task.behind bound s.tasks ∧
      visits.length = pageCount s.pageSize (Task.behind bound s.tasks).length := by
  induction h with
  | @last s bound hfits =>
    rw [pageCount_of_le s.pageSize_pos hfits]
    simp
  | @next s bound front rest t visits changes hcut hfull hmore hrest ih =>
    have hlater : (s.after changes).tasks = s.tasks := by
      obtain ⟨page, later, rfl⟩ := hrest.exists_cons
      exact hsame ⟨s.after changes, page⟩ (by simp)
    obtain ⟨hlisted, hcount⟩ := ih fun v hv =>
      (hsame v (List.mem_cons_of_mem _ hv)).trans hlater.symm
    rw [hlater, s.inOrder.behind_some hcut] at hlisted hcount
    have hlength : (front ++ t :: rest).length = s.pageSize + rest.length := by
      rw [List.length_append, List.length_cons, ← hfull]
      omega
    refine ⟨?_, ?_⟩
    · rw [listed_cons, hlisted, hcut, ← List.append_cons]
    · rw [List.length_cons, hcount, TaskStore.pageSize_after, hcut, hlength,
        pageCount_add s.pageSize_pos (List.length_pos_iff.mpr hmore)]

end Scan

/-- With fuel for one page more than there are tasks left, a listing comes to its end. -/
theorem listing_pagesFrom (s : TaskStore) (fuel : Nat) (bound : Option String)
    (h : (Task.behind bound s.tasks).length < fuel) :
    Listing s (bound.map Cursor.ofId)
      ((s.pagesFrom fuel (bound.map Cursor.ofId)).map (Visit.mk s)) := by
  induction fuel generalizing bound with
  | zero => contradiction
  | succ fuel ih =>
    rcases s.page_cases bound with ⟨hfits, hpage⟩ | ⟨front, t, rest, hcut, hfull, hmore, hpage⟩
    · simp only [TaskStore.pagesFrom, hpage]
      exact .last hpage rfl
    · have hfuel : (Task.behind (some t.id) s.tasks).length < fuel := by
        rw [s.inOrder.behind_some hcut]
        rw [hcut, List.length_append, List.length_cons] at h
        omega
      simp only [TaskStore.pagesFrom, hpage]
      exact .next [] hpage rfl (ih (some t.id) hfuel)

/-- **Paging neither repeats nor skips a task**, whatever happens to the store between the requests.
A store takes every cursor that was handed out. The identifiers that are listed ascend, byte by
byte. A task that every request meets is listed once, and every page but the last one is full. If
the tasks stay as they are, all of them are listed, on as many pages as it takes; and such a listing
there is. -/
theorem Listing.neither_repeats_nor_skips {s : TaskStore} {visits : List Visit}
    (h : Listing s none visits) :
    (∀ (t t' : TaskStore) (cursor : Option String) (page : TaskPage) (c : String),
      t.page cursor = .ok page → page.nextCursor = some c →
      ∃ page', t'.page (some c) = .ok page') ∧
    ((listed visits).map fun t => Text.bytes t.id).Pairwise (· < ·) ∧
    (∀ id, (∀ v ∈ visits, v.store.contains id = true) →
      ((listed visits).map Task.id).count id = 1) ∧
    (∀ v ∈ visits.dropLast, v.page.tasks.length = max s.config.pageSize 1) ∧
    ((∀ v ∈ visits, v.store.tasks = s.tasks) →
      listed visits = s.tasks ∧
      visits.length = max 1 ((s.size + max s.config.pageSize 1 - 1) / max s.config.pageSize 1)) ∧
    Listing s none (s.pages.map (Visit.mk s)) := by
  have hscan : Scan s none visits := Listing.scan h
  have hnodup : ((listed visits).map Task.id).Nodup := by
    refine List.pairwise_map.mpr (hscan.inOrder.imp fun {t u} htu => ?_)
    exact fun heq => String.lt_irrefl u.id (heq ▸ htu)
  refine ⟨fun t t' cursor page c hpage hcursor => TaskStore.page_of_nextCursor hpage hcursor t',
    ?_, fun id hstays => ?_, hscan.full_of_mem_dropLast, ?_,
    listing_pagesFrom s (s.size + 1) none (Nat.lt_succ_of_le (Nat.le_of_eq s.length_tasks))⟩
  · exact List.pairwise_map.mpr (hscan.inOrder.imp Text.bytes_lt_of_lt)
  · rw [hnodup.count, if_pos (hscan.mem_of_contains hstays (by simp [Task.Behind]))]
  · rw [← s.length_tasks]
    exact hscan.listed_of_unchanged

/-- A store of two tasks, whose pages hold one. The later task comes first. -/
def laterFirst : TaskStore :=
  let created := TaskChange.create ⟨0, 0⟩ none none
  { TaskStore.empty { pageSize := 0, idStrategy := .sequential "t" } (fun _ => []) with
    sequence := 9 }.after [created, created]

/-- The task that the first cursor names is gone, and another one there, when the second page is
asked for. -/
theorem listing_past_deleted_task :
    ∃ visits, Listing laterFirst none visits ∧
      (listed visits).map Task.id = ["t10", "t11", "t9"] ∧
      (∀ v ∈ visits, v.store.contains "t9" = true) ∧
      ((listed visits).map Task.id).count "t9" = 1 := by
  let task (id : String) : Task :=
    { id, status := .working, createdAt := ⟨0, 0⟩, lastUpdatedAt := ⟨0, 0⟩ }
  let s₁ := laterFirst.after [.delete "t10", .create ⟨0, 0⟩ none none]
  let s₂ := s₁.after [.setResult "t9" .null]
  let visits : List Visit :=
    [⟨laterFirst, [task "t10"], some (Cursor.ofId "t10")⟩,
      ⟨s₁, [task "t11"], some (Cursor.ofId "t11")⟩, ⟨s₂, [task "t9"], none⟩]
  have hlisting : Listing laterFirst none visits :=
    .next _ rfl rfl (.next _ rfl rfl (.last rfl rfl))
  have hstays : ∀ v ∈ visits, v.store.contains "t9" = true := by decide
  obtain ⟨-, -, honce, -⟩ := hlisting.neither_repeats_nor_skips
  exact ⟨visits, hlisting, rfl, hstays, honce "t9" hstays⟩

end Switchboard
