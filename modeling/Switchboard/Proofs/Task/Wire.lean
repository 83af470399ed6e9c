import Switchboard.Proofs.Json.Members
import Switchboard.Proofs.Json.RoundTrip
import Switchboard.Proofs.Time.Reading
import Switchboard.Task.Basic

/-!
# Tasks on the wire

A task whose times and spans the wire form has room for (`Task.Portable`) reads back as it was, with
its spans cut off to whole milliseconds (`Task.truncated`), and so do the tasks of a page. The
members are known by name (`Task.member?_toJson`), where one that is lacking has been left out. The
text of a wire form reads back as well, since it has no other numbers than integers of 64 bits and is
not nested deep (`Json.Legible`).
-/

namespace Switchboard

/-! ### Values that read back -/

namespace Json

variable {ms : List (String × Json)} {items : List Json} {d : Nat}

/-- The value reads back from its text: it has no fractions and is nested at most so deep. -/
def Legible (d : Nat) (v : Json) : Prop :=
  v.Integral ∧ v.depth ≤ d

theorem Legible.read {v : Json} (h : v.Legible d) (hd : d ≤ maxDepth) : read v.bytes = .ok v :=
  read_bytes h.1 (Nat.le_trans h.2 hd)

theorem legible_arr (h : ∀ v ∈ items, v.Legible d) : (arr items).Legible (d + 1) := by
  have hitems : IntegralItems items ∧ depthItems items ≤ d := by
    induction items with
    | nil => exact ⟨trivial, Nat.zero_le d⟩
    | cons v vs ih =>
      obtain ⟨hv, hvs⟩ := List.forall_mem_cons.mp h
      obtain ⟨hintegral, hdepth⟩ := ih hvs
      exact ⟨⟨hv.1, hintegral⟩, Nat.max_le.mpr ⟨hv.2, hdepth⟩⟩
  exact ⟨hitems.1, Nat.succ_le_succ hitems.2⟩

theorem legible_members (h : ∀ m ∈ ms, m.2.Legible d) : IntegralMembers ms ∧ depthMembers ms ≤ d := by
  induction ms with
  | nil => exact ⟨trivial, Nat.zero_le d⟩
  | cons m ms ih =>
    obtain ⟨hm, hms⟩ := List.forall_mem_cons.mp h
    obtain ⟨hintegral, hdepth⟩ := ih hms
    exact ⟨⟨hm.1, hintegral⟩, Nat.max_le.mpr ⟨hm.2, hdepth⟩⟩

theorem legible_object (h : ∀ m ∈ ms, m.2.Legible d) : (object ms).Legible (d + 1) := by
  obtain ⟨hintegral, hdepth⟩ := legible_members fun m hm => h m (Members.mem_ofList hm)
  exact ⟨⟨Members.sorted_ofList ms, hintegral⟩, Nat.succ_le_succ hdepth⟩

end Json

namespace Shape

/-- A list reads back item by item, in its order. -/
theorem list_map {α β : Type} {shape : Shape β} {write : α → Json} {back : α → β} {as : List α}
    (h : ∀ a ∈ as, shape (write a) = .ok (back a)) :
    list shape (.arr (as.map write)) = .ok (as.map back) := by
  show (as.map write).mapM shape = .ok (as.map back)
  induction as with
  | nil => rfl
  | cons a as ih =>
    obtain ⟨ha, has⟩ := List.forall_mem_cons.mp h
    rw [List.map_cons, List.mapM_cons, ha, ih has]
    rfl

end Shape

/-! ### Spans and instants -/

namespace Duration

/-- Without the part of a millisecond. -/
def truncated (d : Duration) : Duration :=
  ofMillis d.millis

theorem toJson_truncated (d : Duration) : d.truncated.toJson = d.toJson := by
  rw [toJson, truncated, millis_ofMillis, toJson]

theorem toJson_of_lt {d : Duration} (h : d.millis < 2 ^ 64) : d.toJson = .int (d.millis : Nat) := by
  have hmod : d.millis % UInt64.size = d.millis := Nat.mod_eq_of_lt h
  rw [toJson, hmod]

/-- **A span below `2^64` milliseconds reads back in whole milliseconds.** -/
theorem ofJson_toJson {d : Duration} (h : d.millis < 2 ^ 64) : ofJson d.toJson = .ok d.truncated := by
  have hshift : (1 <<< 64 : Nat) = 2 ^ 64 := rfl
  have hrange : (0 : Int) ≤ (d.millis : Int) ∧ (d.millis : Int) ≤ ((1 <<< 64 : Nat) : Int) - 1 := by
    omega
  rw [toJson_of_lt h, ofJson, Shape.nat64, Shape.natural, Shape.integer, if_pos hrange]
  rfl

theorem legible_toJson (d : Duration) : d.toJson.Legible 0 := by
  refine ⟨?_, Nat.le_refl 0⟩
  have hlt : d.millis % UInt64.size < 2 ^ 64 := Nat.mod_lt _ (by decide)
  show -((1 <<< 63 : Nat) : Int) ≤ ((d.millis % UInt64.size : Nat) : Int) ∧
    ((d.millis % UInt64.size : Nat) : Int) < ((1 <<< 64 : Nat) : Int)
  have hshift : (1 <<< 64 : Nat) = 2 ^ 64 := rfl
  omega

end Duration

namespace Timestamp

/-- Outside leap seconds, and in the years that are written with four digits. -/
structure Plain (t : Timestamp) : Prop where
  nanos : t.nanos < 1000000000
  year : 0 ≤ (Date.ofDays (t.seconds / 86400)).year ∧
    (Date.ofDays (t.seconds / 86400)).year ≤ 9999

theorem Plain.ofJson_toJson {t : Timestamp} (h : t.Plain) : ofJson t.toJson = .ok t := by
  obtain ⟨hlow, hhigh⟩ := h.year
  simp only [toJson, ofJson, read_text h.nanos (by omega) (by omega)]

end Timestamp

/-! ### Tasks -/

namespace Task

/-- The wire form has room for the task's times and spans. -/
structure Portable (t : Task) : Prop where
  createdAt : t.createdAt.Plain
  lastUpdatedAt : t.lastUpdatedAt.Plain
  ttl : ∀ d, t.ttl = some d → d.millis < 2 ^ 64
  pollInterval : ∀ d, t.pollInterval = some d → d.millis < 2 ^ 64

/-- With spans in whole milliseconds. -/
def truncated (t : Task) : Task :=
  { t with ttl := t.ttl.map Duration.truncated, pollInterval := t.pollInterval.map Duration.truncated }

variable (t : Task)

/-- What each name stands for. -/
theorem member?_toJson (k : String) :
    t.toJson.member? k =
      (if k = "pollInterval" then t.pollInterval.map Duration.toJson else none).or
        ((if k = "ttl" then t.ttl.map Duration.toJson else none).or
          ((if k = "lastUpdatedAt" then some t.lastUpdatedAt.toJson
            else if k = "createdAt" then some t.createdAt.toJson else none).or
              ((if k = "statusMessage" then t.statusMessage.map Json.str else none).or
                (if k = "status" then some t.status.toJson
                  else if k = "taskId" then some (.str t.id) else none)))) := by
  show Json.Members.get? k (.ofList t.fields) = _
  rw [fields, Json.Members.get?_ofList_append, Json.Members.get?_ofList_append,
    Json.Members.get?_ofList_append, Json.Members.get?_ofList_append,
    Json.Members.get?_ofList_toList, Json.Members.get?_ofList_toList,
    Json.Members.get?_ofList_toList]
  simp only [Json.Members.ofList, List.foldl_cons, List.foldl_nil, Json.Members.get?_insert,
    Json.Members.get?]

/-- The members that every task has. -/
theorem member?_required :
    t.toJson.member? "taskId" = some (.str t.id) ∧
      t.toJson.member? "status" = some t.status.toJson ∧
      t.toJson.member? "createdAt" = some t.createdAt.toJson ∧
      t.toJson.member? "lastUpdatedAt" = some t.lastUpdatedAt.toJson := by
  simp only [member?_toJson]
  simp

/-- The members that are left out if there is nothing to say. -/
theorem member?_optional :
    t.toJson.member? "statusMessage" = t.statusMessage.map Json.str ∧
      t.toJson.member? "ttl" = t.ttl.map Duration.toJson ∧
      t.toJson.member? "pollInterval" = t.pollInterval.map Duration.toJson := by
  simp only [member?_toJson]
  simp

theorem toJson_truncated : t.truncated.toJson = t.toJson := by
  have hspans (d? : Option Duration) (name : String) :
      ((d?.map Duration.truncated).toList.map fun d => (name, d.toJson)) =
        d?.toList.map fun d => (name, d.toJson) := by
    cases d? with
    | none => rfl
    | some d => simp [Duration.toJson_truncated]
  simp only [toJson, fields, truncated, hspans]

theorem careful_record : record.Careful :=
  (((((((Record.Careful.of _).andThen (.required "taskId" Shape.text)).andThen
    (.required "status" TaskStatus.ofJson)).andThen (.withDefault "statusMessage" none _)).andThen
    (.required "createdAt" Timestamp.ofJson)).andThen
    (.required "lastUpdatedAt" Timestamp.ofJson)).andThen (.withDefault "ttl" none _)).andThen
    (.withDefault "pollInterval" none _)

variable {t}

/-- **A task reads back from its wire form**, with spans in whole milliseconds. -/
theorem Portable.ofJson_toJson (h : t.Portable) : ofJson t.toJson = .ok t.truncated := by
  obtain ⟨hid, hstatus, hcreated, hupdated⟩ := t.member?_required
  obtain ⟨hmessage, httl, hpoll⟩ := t.member?_optional
  have hspan {d : Duration} (hd : d.millis < 2 ^ 64) :
      d.toJson ≠ .null ∧ Duration.ofJson d.toJson = .ok d.truncated :=
    ⟨by simp [Duration.toJson], Duration.ofJson_toJson hd⟩
  refine (Record.read_obj careful_record (Json.Members.sorted_ofList t.fields)).mpr ?_
  -- One field after the other is applied to what the record has been built to so far.
  refine Record.andThen_eq_ok.mpr ⟨_, _, ?_, Record.build_optional hpoll fun d hd =>
    hspan (h.pollInterval d hd), rfl⟩
  refine Record.andThen_eq_ok.mpr ⟨_, _, ?_, Record.build_optional httl fun d hd =>
    hspan (h.ttl d hd), rfl⟩
  refine Record.andThen_eq_ok.mpr ⟨_, _, ?_, Record.required_eq_ok.mpr
    ⟨_, hupdated, h.lastUpdatedAt.ofJson_toJson⟩, rfl⟩
  refine Record.andThen_eq_ok.mpr ⟨_, _, ?_, Record.required_eq_ok.mpr
    ⟨_, hcreated, h.createdAt.ofJson_toJson⟩, rfl⟩
  refine Record.andThen_eq_ok.mpr ⟨_, _, ?_, Record.build_optional_text hmessage, rfl⟩
  refine Record.andThen_eq_ok.mpr ⟨_, _, ?_, Record.required_eq_ok.mpr
    ⟨_, hstatus, TaskStatus.ofJson_toJson t.status⟩, rfl⟩
  exact Record.andThen_eq_ok.mpr ⟨_, _, rfl, Record.required_eq_ok.mpr ⟨_, hid, rfl⟩, rfl⟩

/-- A wire form holds strings and spans. -/
theorem legible_toJson (t : Task) : t.toJson.Legible 1 := by
  refine Json.legible_object fun m hm => ?_
  simp only [fields, List.mem_append, List.mem_map, List.mem_cons, List.not_mem_nil, or_false] at hm
  rcases hm with ((((rfl | rfl) | ⟨s, -, rfl⟩) | rfl | rfl) | ⟨d, -, rfl⟩) | ⟨d, -, rfl⟩
  case inl.inr | inr => exact d.legible_toJson
  all_goals exact ⟨trivial, Nat.le_refl 0⟩

end Task

/-! ### Pages -/

namespace TaskPage

/-- With the spans of its tasks in whole milliseconds. -/
def truncated (p : TaskPage) : TaskPage :=
  { p with tasks := p.tasks.map Task.truncated }

variable (p : TaskPage)

theorem member?_toJson (k : String) :
    p.toJson.member? k =
      (if k = "nextCursor" then p.nextCursor.map Json.str else none).or
        (if k = "tasks" then some (.arr (p.tasks.map Task.toJson)) else none) := by
  show Json.Members.get? k (.ofList (p.fieldsWith Task.toJson)) = _
  rw [fieldsWith, Json.Members.get?_ofList_append, Json.Members.get?_ofList_toList]
  rfl

theorem toJson_truncated : p.truncated.toJson = p.toJson := by
  have htasks : (p.tasks.map Task.truncated).map Task.toJson = p.tasks.map Task.toJson := by
    rw [List.map_map]
    exact List.map_congr_left fun t _ => t.toJson_truncated
  simp only [toJson, fieldsWith, truncated, htasks]

theorem careful_record : record.Careful :=
  ((Record.Careful.of _).andThen (.required "tasks" (Shape.list Task.ofJson))).andThen
    (.withDefault "nextCursor" none _)

variable {p}

/-- **A page reads back from its wire form**, its tasks in their order. -/
theorem ofJson_toJson (h : ∀ t ∈ p.tasks, t.Portable) : ofJson p.toJson = .ok p.truncated := by
  have htasks : p.toJson.member? "tasks" = some (.arr (p.tasks.map Task.toJson)) := by
    rw [member?_toJson]
    rfl
  have hcursor : p.toJson.member? "nextCursor" = p.nextCursor.map Json.str := by
    simp [member?_toJson]
  refine (Record.read_obj careful_record
    (Json.Members.sorted_ofList (p.fieldsWith Task.toJson))).mpr ?_
  refine Record.andThen_eq_ok.mpr ⟨_, _, ?_, Record.build_optional_text hcursor, rfl⟩
  exact Record.andThen_eq_ok.mpr ⟨_, _, rfl, Record.required_eq_ok.mpr
    ⟨_, htasks, Shape.list_map fun t ht => (h t ht).ofJson_toJson⟩, rfl⟩

/-- A page holds an array of tasks, and perhaps a string. -/
theorem legible_toJson (p : TaskPage) : p.toJson.Legible 3 := by
  refine Json.legible_object fun m hm => ?_
  simp only [fieldsWith, List.mem_append, List.mem_map, List.mem_singleton] at hm
  rcases hm with rfl | ⟨c, -, rfl⟩
  · refine Json.legible_arr fun v hv => ?_
    obtain ⟨t, -, rfl⟩ := List.mem_map.mp hv
    exact t.legible_toJson
  · exact ⟨trivial, Nat.zero_le 2⟩

end TaskPage

/-- **Tasks survive the wire.**

* The text of a task's wire form reads back as that wire form, and this as the task with its time to
  live and poll interval in whole milliseconds and all else equal.
* The wire form of what was read is the same again.
* A status message, time to live or poll interval that the task does not have is left out.
* The same holds for a page of tasks, which come back in their order with the same next cursor. -/
theorem Task.survives_wire :
    (∀ t : Task, t.Portable →
      Json.read t.toJson.bytes = .ok t.toJson ∧
      Task.ofJson t.toJson =
        .ok { t with
          ttl := t.ttl.map fun d => .ofMillis d.millis
          pollInterval := t.pollInterval.map fun d => .ofMillis d.millis } ∧
      t.truncated.toJson = t.toJson ∧
      t.toJson.member? "statusMessage" = t.statusMessage.map Json.str ∧
      t.toJson.member? "ttl" = t.ttl.map Duration.toJson ∧
      t.toJson.member? "pollInterval" = t.pollInterval.map Duration.toJson) ∧
    ∀ p : TaskPage, (∀ t ∈ p.tasks, t.Portable) →
      Json.read p.toJson.bytes = .ok p.toJson ∧
      TaskPage.ofJson p.toJson = .ok ⟨p.tasks.map Task.truncated, p.nextCursor⟩ ∧
      p.truncated.toJson = p.toJson ∧
      p.toJson.member? "nextCursor" = p.nextCursor.map Json.str := by
  refine ⟨fun t h => ⟨t.legible_toJson.read (by decide), h.ofJson_toJson, t.toJson_truncated,
    t.member?_optional⟩, fun p h => ⟨p.legible_toJson.read (by decide), TaskPage.ofJson_toJson h,
    p.toJson_truncated, ?_⟩⟩
  simp [TaskPage.member?_toJson]

/-- A task from the first year to the last, to be kept for one and a half milliseconds, alone on its
page. -/
theorem Task.survives_wire_all_years :
    ∃ t : Task, t.createdAt = ⟨-62167219200, 1000⟩ ∧ t.lastUpdatedAt = ⟨253402300799, 999999999⟩ ∧
      t.ttl = some ⟨1500000⟩ ∧ t.Portable ∧
      Task.ofJson t.toJson = .ok { t with ttl := some ⟨1000000⟩ } ∧
      t.toJson.member? "ttl" = some (.int 1) ∧ t.toJson.member? "pollInterval" = none ∧
      TaskPage.ofJson (TaskPage.toJson ⟨[t], some "7431"⟩) =
        .ok ⟨[{ t with ttl := some ⟨1000000⟩ }], some "7431"⟩ := by
  let t : Task :=
    { id := "t1", status := .working, createdAt := ⟨-62167219200, 1000⟩
      lastUpdatedAt := ⟨253402300799, 999999999⟩, ttl := some ⟨1500000⟩ }
  have hportable : t.Portable :=
    { createdAt := ⟨by decide, by decide⟩
      lastUpdatedAt := ⟨by decide, by decide⟩
      ttl := by rintro d ⟨⟩; decide
      pollInterval := by rintro d ⟨⟩ }
  obtain ⟨htask, hpage⟩ := Task.survives_wire
  obtain ⟨-, hback, -, -, httl, hpoll⟩ := htask t hportable
  obtain ⟨-, hpages, -⟩ := hpage ⟨[t], some "7431"⟩ (List.forall_mem_singleton.mpr hportable)
  exact ⟨t, rfl, rfl, rfl, hportable, hback, httl, hpoll, hpages⟩

end Switchboard
