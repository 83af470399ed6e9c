import Switchboard.Proofs.Message.Grammar
import Switchboard.Proofs.Task.Changes

/-!
# Requests for tasks

Five methods are answered from a task store. Three of them only read it, and whatever is answered
with an error leaves it as it was, since parameters are read and tasks looked up before anything is
written. What the other two write is said without them: `TaskStore.Adds` is a store with one task
more, and `TaskStore.Replaces` a store with one task changed.

Parameters come by name in an object or by place in an array, and any of them may be of the wrong
kind. `Request.AsksFor` and `Request.Names` say which parameters are understood, and what is asked
for.
-/

namespace Switchboard

/-! ### Parameters -/

namespace Record

/-- A field that may be left out: without a value, or with `null`, it is none. -/
theorem optional_eq_ok {α : Type} {name : String} {shape : Shape α} {get : String → Option Json}
    {a? : Option α} :
    (optional name shape).build get = .ok a? ↔
      ((get name).filter (· ≠ .null) = none ∧ a? = none) ∨
        ∃ v a, (get name).filter (· ≠ .null) = some v ∧ shape v = .ok a ∧ a? = some a := by
  simp only [optional, withDefault]
  cases hget : get name with
  | none => simp [eq_comm]
  | some v =>
    by_cases hnull : v = .null
    · subst hnull
      have hfilter : (some Json.null).filter (· ≠ .null) = none := rfl
      rw [hfilter]
      simp [Shape.nullable, eq_comm]
    · have hfilter : (some v).filter (· ≠ .null) = some v := by simp [Option.filter_some, hnull]
      have hnullable : Shape.nullable shape v = (shape v).map some := by
        unfold Shape.nullable
        split
        · contradiction
        · rfl
      simp only [hfilter, hnullable]
      cases hread : shape v with
      | error e => simp [Except.map, hread]
      | ok a => simp [Except.map, hread, eq_comm]

end Record

/-- A span is whole milliseconds of 64 bits. -/
theorem Duration.ofJson_eq_ok {v : Json} {d : Duration} :
    ofJson v = .ok d ↔ ∃ n < 2 ^ 64, v = .int (n : Nat) ∧ d = ofMillis n := by
  cases v with
  | int m =>
    have hshift : ((1 <<< 64 : Nat) : Int) - 1 = 2 ^ 64 - 1 := rfl
    simp only [ofJson, Shape.nat64, Shape.natural, Shape.integer, hshift, Json.int.injEq]
    split
    · next hm =>
      simp only [Except.map, Except.ok.injEq]
      constructor
      · rintro rfl
        exact ⟨m.toNat, by omega, by omega, rfl⟩
      · rintro ⟨n, -, rfl, rfl⟩
        rfl
    · next hm =>
      simp only [Except.map, reduceCtorEq, false_iff]
      rintro ⟨n, hn, rfl, -⟩
      exact hm (by omega)
  | _ => simp [ofJson, Shape.nat64, Shape.natural, Shape.integer, Except.map]

namespace Request

/-- The value that is given for a parameter: by name in an object, by place in an array. One that is
`null` counts as left out. -/
def given? (params : Option Json) (name : String) (place : Nat) : Option Json :=
  match params with
  | some (.obj ms) => (Json.Members.get? name ms).filter (· ≠ .null)
  | some (.arr items) => items[place]?.filter (· ≠ .null)
  | _ => none

/-- Parameters that are looked up by name or by place, of which there are so many. -/
def Listed (places : Nat) : Option Json → Prop
  | none | some (.obj _) => True
  | some (.arr items) => items.length ≤ places
  | some _ => False

/-- A span of time that is given, in milliseconds of 64 bits, or left out. -/
def Spans (v? : Option Json) (d? : Option Duration) : Prop :=
  (v? = none ∧ d? = none) ∨ ∃ n < 2 ^ 64, v? = some (.int (n : Nat)) ∧ d? = some (.ofMillis n)

/-- What a task is to be created with. -/
def AsksFor (params : Option Json) (ttl poll : Option Duration) : Prop :=
  Listed 2 params ∧ Spans (given? params "ttl" 0) ttl ∧ Spans (given? params "pollInterval" 1) poll

/-- The task that is named; an array names it alone. -/
def Names (params : Option Json) (id : String) : Prop :=
  (∃ ms, params = some (.obj ms) ∧ Json.Members.get? "taskId" ms = some (.str id)) ∨
    params = some (.arr [.str id])

theorem spans_eq_ok {name : String} {get : String → Option Json} {d? : Option Duration} :
    (Record.optional name Duration.ofJson).build get = .ok d? ↔
      Spans ((get name).filter (· ≠ .null)) d? := by
  rw [Record.optional_eq_ok, Spans]
  refine or_congr Iff.rfl ⟨?_, ?_⟩
  · rintro ⟨v, d, hv, hd, rfl⟩
    obtain ⟨n, hn, rfl, rfl⟩ := Duration.ofJson_eq_ok.mp hd
    exact ⟨n, hn, hv, rfl⟩
  · rintro ⟨n, hn, hv, rfl⟩
    exact ⟨_, _, hv, Duration.ofJson_eq_ok.mpr ⟨n, hn, rfl, rfl⟩, rfl⟩

/-- The fields that a task is created with. -/
def spanFields : Record (Option Duration × Option Duration) :=
  Record.of Prod.mk
    |>.andThen (.optional "ttl" Duration.ofJson)
    |>.andThen (.optional "pollInterval" Duration.ofJson)

theorem careful_spanFields : spanFields.Careful :=
  ((Record.Careful.of Prod.mk).andThen
    (.withDefault "ttl" none (Shape.nullable Duration.ofJson))).andThen
    (.withDefault "pollInterval" none (Shape.nullable Duration.ofJson))

theorem spanFields_build {get : String → Option Json} {ttl poll : Option Duration} :
    spanFields.build get = .ok (ttl, poll) ↔
      Spans ((get "ttl").filter (· ≠ .null)) ttl ∧
        Spans ((get "pollInterval").filter (· ≠ .null)) poll := by
  rw [← spans_eq_ok, ← spans_eq_ok]
  constructor
  · intro h
    obtain ⟨_, poll', h₁, hpoll, heq⟩ := Record.andThen_eq_ok.mp h
    obtain ⟨_, ttl', h₂, httl, rfl⟩ := Record.andThen_eq_ok.mp h₁
    cases h₂
    cases heq
    exact ⟨httl, hpoll⟩
  · rintro ⟨httl, hpoll⟩
    refine Record.andThen_eq_ok.mpr ⟨_, _, ?_, hpoll, rfl⟩
    exact Record.andThen_eq_ok.mpr ⟨_, _, rfl, httl, rfl⟩

theorem readParams_eq_ok {α : Type} {shape : Shape α} {params : Option Json} {a : α} :
    TaskStore.readParams shape params = .ok a ↔ shape (params.getD (.obj [])) = .ok a := by
  rw [TaskStore.readParams]
  cases shape (params.getD (.obj [])) <;> simp

/-- **What a task is to be created with** is read from its parameters. -/
theorem createParams_eq_ok {params : Option Json} (hparams : ∀ v ∈ params, v.Canonical)
    {ttl poll : Option Duration} :
    TaskStore.readParams TaskStore.createParams params = .ok (ttl, poll) ↔
      AsksFor params ttl poll := by
  have hshape : TaskStore.createParams = spanFields.read "struct CreateParams" := rfl
  rw [readParams_eq_ok, hshape, AsksFor]
  cases params with
  | none =>
    rw [Option.getD_none, Record.read_obj careful_spanFields .nil, spanFields_build]
    simp [Listed, given?, Json.Members.get?]
  | some v =>
    rw [Option.getD_some]
    cases v with
    | obj ms =>
      rw [Record.read_obj careful_spanFields (hparams _ rfl).1, spanFields_build]
      simp [Listed, given?]
    | arr items =>
      rw [Record.read_arr careful_spanFields (by decide), spanFields_build]
      have hcount : spanFields.fields.length = 2 := rfl
      have htrailing : ∀ f ∈ spanFields.fields.drop items.length, f.trailing = true := by
        have hall : ∀ f ∈ spanFields.fields, f.trailing = true := by decide
        exact fun f hf => hall f (List.mem_of_mem_drop hf)
      have hplaces : ((spanFields.fields.map (·.name)).zip items).lookup "ttl" = items[0]? ∧
          ((spanFields.fields.map (·.name)).zip items).lookup "pollInterval" = items[1]? := by
        rcases items with _ | ⟨v, _ | ⟨w, rest⟩⟩ <;> exact ⟨rfl, rfl⟩
      simp only [hcount, hplaces, Listed, given?]
      exact and_congr_right fun _ => and_iff_right htrailing
    | _ => simp [Record.read, Listed]

theorem idParams_eq_ok {params : Option Json} (hparams : ∀ v ∈ params, v.Canonical)
    {id : String} :
    TaskStore.readParams TaskStore.idParams params = .ok id ↔ Names params id := by
  have hcareful : (Record.required "taskId" Shape.text).Careful := .required _ _
  rw [readParams_eq_ok, TaskStore.idParams]
  cases params with
  | none =>
    rw [Option.getD_none, Record.read_obj hcareful .nil, Record.required_eq_ok]
    simp [Names, Json.Members.get?]
  | some v =>
    rw [Option.getD_some]
    cases v with
    | obj ms =>
      rw [Record.read_obj hcareful (hparams _ rfl).1, Record.required_eq_ok]
      simp [Names, ErrorObject.text_eq_ok]
    | arr items =>
      rw [Record.read_arr hcareful (by decide), Record.required_eq_ok]
      rcases items with _ | ⟨v, _ | ⟨w, rest⟩⟩
      · simp [Names, Record.required]
      · simp [Names, Record.required, ErrorObject.text_eq_ok]
      · simp [Names, Record.required]
    | _ => simp [Record.read, Names]

end Request

namespace TaskStore

/-! ### Changes of one task -/

/-- The store with a task more. -/
structure Adds (s : TaskStore) (t : Task) (s' : TaskStore) : Prop where
  new : s.contains t.id = false
  added : s'.get? t.id = some t
  others : ∀ id, id ≠ t.id → s'.get? id = s.get? id
  size : s'.size = s.size + 1
  results : s'.results = s.results
  config : s'.config = s.config

/-- The store with a task in the place of the one that had its identifier. -/
structure Replaces (s : TaskStore) (t : Task) (s' : TaskStore) : Prop where
  old : s.contains t.id = true
  replaced : s'.get? t.id = some t
  others : ∀ id, id ≠ t.id → s'.get? id = s.get? id
  size : s'.size = s.size
  frame : s' = { s with table := s'.table, keyed := s'.keyed }

variable {s s' : TaskStore} {now : Timestamp} {params : Option Json} {v : Json} {r : Request}
  {e : ErrorObject} {method : TaskMethod}

theorem adds_create (range : s.InRange) (room : s.HasRoom) (ttl poll : Option Duration) :
    s.Adds (s.newTask now ttl poll) (s.create now ttl poll).2 where
  new := contains_mint range room
  added := s.get?_create_self now ttl poll
  others id hid := (s.get?_create now ttl poll id).trans (if_neg hid)
  size := size_create now ttl poll (contains_mint range room)
  results := s.mint_frame.2.2
  config := s.mint_frame.1

theorem replaces_moveTask {id : String} {t : Task} (hget : s.get? id = some t)
    (now : Timestamp) (status : TaskStatus) (message : Option String) :
    s.Replaces (t.moved now status message) (s.moveTask now id status message) := by
  obtain rfl : t.id = id := (get?_eq_some.mp hget).2
  refine ⟨Option.isSome_of_eq_some hget, ?_, fun id hne => ?_, s.size_moveTask now _ _ _, rfl⟩
  · refine (s.get?_moveTask now t.id t.id status message).trans ?_
    rw [if_pos rfl, hget, Option.map_some]
  · exact (s.get?_moveTask now t.id id status message).trans (if_neg hne)

/-! ### The methods -/

theorem exists_of_readParams_error {α : Type} {shape : Shape α}
    (h : readParams shape params = .error e) : ∃ message, e = .invalidParams message := by
  unfold readParams at h
  split at h
  · cases h
  · exact ⟨_, (Except.error.inj h).symm⟩

theorem exists_of_taskById_error {id : String} (h : s.taskById id = .error e) :
    ∃ message, e = .invalidParams message := by
  unfold taskById at h
  split at h
  · cases h
  · exact ⟨_, (Except.error.inj h).symm⟩

theorem exists_of_resultById_error {id : String} (h : s.resultById id = .error e) :
    ∃ message, e = .invalidParams message := by
  unfold resultById at h
  split at h
  · exact ⟨_, (Except.error.inj h).symm⟩
  · cases h
  · split at h
    · cases h
    · exact ⟨_, (Except.error.inj h).symm⟩

theorem exists_of_pageBehind_error {cursor : Option String} (h : s.pageBehind cursor = .error e) :
    ∃ message, e = .invalidParams message := by
  unfold pageBehind at h
  split at h
  · cases h
  · exact ⟨_, (Except.error.inj h).symm⟩

/-- What is read and then looked up fails when the one or the other does. -/
theorem exists_of_lookup_error {α : Type} {shape : Shape α} {lookup : α → Except ErrorObject Json}
    (hlookup : ∀ a, lookup a = .error e → ∃ message, e = .invalidParams message)
    (h : (readParams shape params).bind lookup = .error e) :
    ∃ message, e = .invalidParams message := by
  cases hread : readParams shape params with
  | error e' =>
    rw [hread] at h
    exact Except.error.inj h ▸ exists_of_readParams_error hread
  | ok a =>
    rw [hread] at h
    exact hlookup a h

/-- Every error is about the parameters. -/
theorem exists_of_perform_error (h : s.perform now method params = (.error e, s')) :
    ∃ message, e = .invalidParams message := by
  cases method with
  | create =>
    rw [perform_create] at h
    split at h
    · cases (Prod.mk.inj h).1
    · next hread => exact Except.error.inj (Prod.mk.inj h).1 ▸ exists_of_readParams_error hread
  | cancel =>
    rw [perform_cancel] at h
    split at h
    · split at h
      · cases (Prod.mk.inj h).1
      · exact ⟨_, (Except.error.inj (Prod.mk.inj h).1).symm⟩
    · next hread => exact Except.error.inj (Prod.mk.inj h).1 ▸ exists_of_readParams_error hread
  | get => exact exists_of_lookup_error (fun _ => exists_of_taskById_error) (Prod.mk.inj h).1
  | list => exact exists_of_lookup_error (fun _ => exists_of_pageBehind_error) (Prod.mk.inj h).1
  | result => exact exists_of_lookup_error (fun _ => exists_of_resultById_error) (Prod.mk.inj h).1

/-- **A creation adds a task** with the spans that are asked for. -/
theorem perform_create_eq_ok (hparams : ∀ v ∈ params, v.Canonical) :
    s.perform now .create params = (.ok v, s') ↔
      ∃ ttl poll, Request.AsksFor params ttl poll ∧
        (s.newTask now ttl poll).toJson = v ∧ (s.create now ttl poll).2 = s' := by
  simp only [← Request.createParams_eq_ok hparams, perform_create]
  cases readParams createParams params with
  | error e => simp
  | ok spans =>
    obtain ⟨ttl, poll⟩ := spans
    simp

theorem cancel_eq_ok {id : String} {t : Task} :
    s.cancel now id = (.ok t, s') ↔
      ∃ u, s.get? id = some u ∧ u.status.isFinal = false ∧ u.moved now .cancelled none = t ∧
        s.moveTask now id .cancelled none = s' := by
  rw [TaskStore.cancel]
  cases hget : s.get? id with
  | none => simp [transition_of_not_found now .cancelled none hget]
  | some u =>
    have hedge : u.status.canBecome .cancelled = !u.status.isFinal :=
      TaskStatus.canBecome_eq_not_isFinal _ _
    cases hfinal : u.status.isFinal with
    | true =>
      rw [hfinal] at hedge
      simp [transition_of_no_edge now none hget hedge, hfinal]
    | false =>
      rw [hfinal] at hedge
      simp [transition_of_edge now none hget hedge, hfinal]

/-- **A cancellation changes the task that is named**, unless its status is final. -/
theorem perform_cancel_eq_ok (hparams : ∀ v ∈ params, v.Canonical) :
    s.perform now .cancel params = (.ok v, s') ↔
      ∃ id t, Request.Names params id ∧ s.get? id = some t ∧ t.status.isFinal = false ∧
        (t.moved now .cancelled none).toJson = v ∧ s.moveTask now id .cancelled none = s' := by
  have hperform : s.perform now .cancel params = (.ok v, s') ↔
      ∃ id t, readParams idParams params = .ok id ∧ s.cancel now id = (.ok t, s') ∧
        t.toJson = v := by
    rw [perform_cancel]
    cases readParams idParams params with
    | error e => simp
    | ok id => rcases hcancel : s.cancel now id with ⟨_ | t, left⟩ <;> simp [hcancel, and_comm]
  simp only [hperform, cancel_eq_ok, Request.idParams_eq_ok hparams]
  constructor
  · rintro ⟨id, _, hid, ⟨t, hget, hfinal, rfl, rfl⟩, rfl⟩
    exact ⟨id, t, hid, hget, hfinal, rfl, rfl⟩
  · rintro ⟨id, t, hid, hget, hfinal, rfl, rfl⟩
    exact ⟨id, _, hid, ⟨t, hget, hfinal, rfl, rfl⟩, rfl⟩

/-- **A result is answered** if the task that is named has one, or will not have one any more. -/
theorem perform_result_eq_ok (hparams : ∀ v ∈ params, v.Canonical) :
    s.perform now .result params = (.ok v, s') ↔
      s = s' ∧ ∃ id t, Request.Names params id ∧ s.get? id = some t ∧
        (s.result? id = some v ∨ s.result? id = none ∧ t.status.isFinal = true ∧ v = .null) := by
  simp only [← Request.idParams_eq_ok hparams, perform, Prod.mk.injEq]
  cases readParams idParams params with
  | error e => simp [Except.bind]
  | ok id =>
    cases hget : s.get? id with
    | none => simp [Except.bind, resultById, hget]
    | some t =>
      cases hresult : s.result? id with
      | some w => simp [Except.bind, resultById, hget, hresult, and_comm]
      | none =>
        cases hfinal : t.status.isFinal <;>
          simp [Except.bind, resultById, hget, hresult, hfinal, and_comm, @eq_comm _ v .null]

/-! ### Requests -/

theorem answer?_eq_none_iff : s.answer? now r = none ↔ TaskMethod.ofName? r.method = none :=
  Option.map_eq_none_iff

theorem answer?_eq_result (hmethod : TaskMethod.ofName? r.method = some method) :
    s.answer? now r = some (.result v, s') ↔ s.perform now method r.params = (.ok v, s') := by
  rw [answer?, hmethod, Option.map_some]
  rcases s.perform now method r.params with ⟨_ | w, left⟩ <;> simp [outcomeOf]

theorem exists_of_answer?_failure (h : s.answer? now r = some (.failure e, s')) :
    ∃ message, e = .invalidParams message := by
  obtain ⟨method, -, hperform⟩ := answer?_eq_failure.mp h
  exact exists_of_perform_error hperform

/-- **Requests for tasks are atomic.** For parameters as the reader delivers them:

* A request is left to somebody else, and changes nothing, if and only if its method is none of the
  five.
* The methods that get, list and answer results change nothing.
* A request that is answered with an error changes nothing, and the error is about its parameters.
* A request to create a task succeeds if and only if its parameters are understood. If there is an
  identifier left, the store has a task more after it, under a new identifier and working, with the
  spans that were asked for, and that task is the answer.
* A request to cancel a task succeeds if and only if it names a task whose status is not final. Only
  that task is another one after it, and that task is the answer.
* A request for a result succeeds if and only if it names a task that has a result, which is the
  answer, or one that has none and whose status is final. -/
theorem requests_are_atomic (s : TaskStore) (now : Timestamp) (r : Request)
    (hparams : ∀ v ∈ r.params, v.Canonical) :
    (s.answer? now r = none ↔
      r.method ∉ ["tasks/create", "tasks/get", "tasks/list", "tasks/cancel", "tasks/result"]) ∧
    (s.answer? now r = none → (TaskUse.answer now r).apply s = s) ∧
    (r.method ∈ ["tasks/get", "tasks/list", "tasks/result"] →
      ∀ o s', s.answer? now r = some (o, s') → s' = s) ∧
    (∀ e s', s.answer? now r = some (.failure e, s') → e.code = -32602 ∧ s' = s) ∧
    (r.method = "tasks/create" →
      ((∃ v s', s.answer? now r = some (.result v, s')) ↔
        ∃ ttl poll, Request.AsksFor r.params ttl poll) ∧
      (s.InRange → s.HasRoom → ∀ v s', s.answer? now r = some (.result v, s') →
        ∃ t ttl poll, Request.AsksFor r.params ttl poll ∧ v = t.toJson ∧ s.Adds t s' ∧
          t = { id := t.id, status := .working, statusMessage := none, createdAt := now,
                lastUpdatedAt := now, ttl
                pollInterval := poll.or (s.config.defaultPollMillis.map .ofMillis) })) ∧
    (r.method = "tasks/cancel" →
      ((∃ v s', s.answer? now r = some (.result v, s')) ↔
        ∃ id t, Request.Names r.params id ∧ s.get? id = some t ∧ t.status.isFinal = false) ∧
      (∀ v s', s.answer? now r = some (.result v, s') →
        ∃ id t, Request.Names r.params id ∧ s.get? id = some t ∧
          v = (t.moved now .cancelled none).toJson ∧ s.Replaces (t.moved now .cancelled none) s')) ∧
    (r.method = "tasks/result" → ∀ v s', s.answer? now r = some (.result v, s') ↔
      s' = s ∧ ∃ id t, Request.Names r.params id ∧ s.get? id = some t ∧
        (s.result? id = some v ∨ s.result? id = none ∧ t.status.isFinal = true ∧ v = .null)) := by
  refine ⟨?_, fun hnone => ?_, fun hreads o s' hanswer => ?_, fun e s' hanswer => ?_,
    fun hcreate => ⟨?_, fun range room v s' hanswer => ?_⟩,
    fun hcancel => ⟨?_, fun v s' hanswer => ?_⟩, fun hresult v s' => ?_⟩
  · rw [answer?_eq_none_iff]
    unfold TaskMethod.ofName?
    split <;> simp_all
  · rw [TaskUse.apply, hnone]
    rfl
  · have happly : (TaskUse.answer now r).apply s = s' := by
      rw [TaskUse.apply, hanswer]
      rfl
    have hchange : TaskUse.asked? now r = none := by
      simp only [List.mem_cons, List.not_mem_nil, or_false] at hreads
      rcases hreads with hm | hm | hm <;> rw [TaskUse.asked?, hm] <;> rfl
    rw [← happly, TaskUse.apply_eq, TaskUse.change?, hchange]
    rfl
  · obtain ⟨message, rfl⟩ := exists_of_answer?_failure hanswer
    exact ⟨rfl, eq_of_answer?_failure hanswer⟩
  · simp only [answer?_eq_result (hcreate ▸ rfl : TaskMethod.ofName? r.method = some .create),
      perform_create_eq_ok hparams]
    constructor
    · rintro ⟨_, _, ttl, poll, hasks, -, -⟩
      exact ⟨ttl, poll, hasks⟩
    · rintro ⟨ttl, poll, hasks⟩
      exact ⟨_, _, ttl, poll, hasks, rfl, rfl⟩
  · rw [answer?_eq_result (hcreate ▸ rfl : TaskMethod.ofName? r.method = some .create),
      perform_create_eq_ok hparams] at hanswer
    obtain ⟨ttl, poll, hasks, rfl, rfl⟩ := hanswer
    exact ⟨s.newTask now ttl poll, ttl, poll, hasks, rfl, adds_create range room ttl poll, rfl⟩
  · simp only [answer?_eq_result (hcancel ▸ rfl : TaskMethod.ofName? r.method = some .cancel),
      perform_cancel_eq_ok hparams]
    constructor
    · rintro ⟨_, _, id, t, hnames, hget, hfinal, -, -⟩
      exact ⟨id, t, hnames, hget, hfinal⟩
    · rintro ⟨id, t, hnames, hget, hfinal⟩
      exact ⟨_, _, id, t, hnames, hget, hfinal, rfl, rfl⟩
  · rw [answer?_eq_result (hcancel ▸ rfl : TaskMethod.ofName? r.method = some .cancel),
      perform_cancel_eq_ok hparams] at hanswer
    obtain ⟨id, t, hnames, hget, -, rfl, rfl⟩ := hanswer
    exact ⟨id, t, hnames, hget, rfl, replaces_moveTask hget now .cancelled none⟩
  · rw [answer?_eq_result (hresult ▸ rfl : TaskMethod.ofName? r.method = some .result),
      perform_result_eq_ok hparams, eq_comm]

/-- A task is created with a time to live of five milliseconds; a member that is not known does not
matter. -/
theorem requests_are_atomic_create :
    let s : TaskStore := .empty { idStrategy := .sequential "t" } fun _ => []
    let r : Request :=
      ⟨.number 1, "tasks/create", some (.obj [("note", .arr []), ("ttl", .int 5)])⟩
    ∃ v s', s.answer? ⟨0, 0⟩ r = some (.result v, s') ∧
      ∃ t, v = t.toJson ∧ s.Adds t s' ∧ t.ttl = some (.ofMillis 5) ∧ t.pollInterval = none := by
  intro s r
  have hparams : ∀ v ∈ r.params, v.Canonical := by
    rintro _ ⟨⟩
    refine ⟨?_, ?_⟩
    · unfold Json.Members.Sorted
      decide
    · simp [Json.CanonicalMembers, Json.Canonical, Json.CanonicalItems, Json.inRange]
  obtain ⟨-, -, -, -, hcreate, -, -⟩ := requests_are_atomic s ⟨0, 0⟩ r hparams
  obtain ⟨hsucceeds, hadds⟩ := hcreate rfl
  have hasks : Request.AsksFor r.params (some (.ofMillis 5)) none :=
    ⟨trivial, .inr ⟨5, by decide, rfl, rfl⟩, .inl ⟨rfl, rfl⟩⟩
  obtain ⟨v, s', hanswer⟩ := hsucceeds.mpr ⟨_, _, hasks⟩
  have range : s.InRange := by
    show 1 < UInt64.size
    decide
  obtain ⟨t, ttl, poll, ⟨-, httl, hpoll⟩, rfl, hadded, ht⟩ :=
    hadds range ⟨0, by exact Nat.two_pow_pos 64, rfl⟩ v s' hanswer
  refine ⟨_, s', hanswer, t, rfl, hadded, ?_, ?_⟩
  · rcases httl with ⟨hnone, -⟩ | ⟨n, -, hgiven, rfl⟩
    · cases hnone
    · cases hgiven
      rw [ht]
  · rcases hpoll with ⟨-, rfl⟩ | ⟨n, -, hgiven, -⟩
    · rw [ht]
      rfl
    · cases hgiven

end TaskStore
end Switchboard
