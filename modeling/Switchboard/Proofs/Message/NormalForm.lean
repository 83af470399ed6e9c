import Mathlib.Tactic.Common
import Switchboard.Proofs.Message.Grammar

/-!
# The normal form of an accepted value

What reading a value and writing it again keeps of it: the members that its kind of message has,
without an identifier that is `null`, and with an error rewritten to an object of code, message and
data that are not `null` (`Message.normalForm`). So writing undoes reading up to the normal form,
and reading undoes writing without exception on whatever was read (`Message.normalForm_of_ofJson`).
-/

namespace Switchboard

namespace Json.Members

variable {ms : Members}

/-- The members of these names; one of them is left out if it is `null`. -/
def keep (names : List String) (nullable : String) (ms : Members) : Members :=
  ms.filter fun m => m.1 ∈ names ∧ ¬ (m.1 = nullable ∧ m.2 = .null)

theorem sorted_keep (h : Sorted ms) (names : List String) (nullable : String) :
    Sorted (ms.keep names nullable) :=
  List.Pairwise.filter _ h

theorem Sorted.get?_keep (h : Sorted ms) (names : List String) (nullable k : String) :
    get? k (ms.keep names nullable) =
      if k ∈ names then if k = nullable then (get? k ms).filter (· ≠ .null) else get? k ms
      else none := by
  rw [Members.keep, h.get?_filter]
  cases get? k ms with
  | none => simp
  | some v =>
    rcases Decidable.em (k = nullable) with rfl | hnull
    · by_cases hk : k ∈ names <;> simp [hk]
    · by_cases hk : k ∈ names <;> simp [hk, hnull, Option.filter_some]

end Json.Members

namespace ErrorObject

/-- The members of an error object. -/
def memberNames : List String :=
  ["code", "message", "data"]

/-- Just these members, those of an array by their places; no data that are `null`. -/
def normalForm : Json → Json
  | .obj ms => .obj (Json.Members.keep memberNames "data" ms)
  | .arr items => .obj (Json.Members.keep memberNames "data" (.ofList (memberNames.zip items)))
  | v => v

theorem get?_fields (k : String) (e : ErrorObject) :
    Json.Members.get? k (.ofList e.fields) =
      if k = "data" then e.data else if k = "message" then some (.str e.message)
      else if k = "code" then some (.int e.code.toInt) else none := by
  rw [fields, Json.Members.get?_ofList_append_toList]
  all_goals simp [Json.Members.ofList, Json.Members.get?_insert, Json.Members.get?]

theorem toJson_eq_keep {ms : Json.Members} (hms : ms.Sorted) {e : ErrorObject}
    (hcode : ms.get? "code" = some (.int e.code.toInt))
    (hmessage : ms.get? "message" = some (.str e.message))
    (hdata : e.data = (ms.get? "data").filter (· ≠ .null)) :
    e.toJson = .obj (ms.keep memberNames "data") := by
  refine congrArg Json.obj (Json.Members.Sorted.ext (Json.Members.sorted_ofList _)
    (Json.Members.sorted_keep hms _ _) fun k => ?_)
  rw [get?_fields, hms.get?_keep]
  split
  case isTrue hk =>
    subst hk
    simp [memberNames, hdata]
  case isFalse hne =>
    split
    case isTrue hk =>
      subst hk
      simp [memberNames, hmessage]
    case isFalse hne' =>
      split
      case isTrue hk =>
        subst hk
        simp [memberNames, hcode]
      case isFalse hne'' => simp [memberNames, hne, hne', hne'']

/-- **An error object is written as the normal form of what it was read from.** -/
theorem Form.toJson_eq {v : Json} {e : ErrorObject} (hv : v.Canonical) (h : Form v e) :
    e.toJson = normalForm v := by
  cases h with
  | members hcode hfits hmessage =>
    exact toJson_eq_keep hv.1 (by rw [hfits.toInt_ofInt, hcode]) hmessage rfl
  | @items code message data hfits =>
    -- The items, named by their places, are the fields of the error object with all its data.
    have hzip : memberNames.zip (.int code :: .str message :: data.toList) =
        fields ⟨Int64.ofInt code, message, data⟩ := by
      cases data <;> simp [memberNames, fields, hfits.toInt_ofInt]
    rw [normalForm, hzip]
    exact toJson_eq_keep (Json.Members.sorted_ofList _) (get?_fields _ _) (get?_fields _ _)
      (by rw [get?_fields]; rfl)

theorem Form.normal_eq {v : Json} {e : ErrorObject} (h : Form v e) : e.normal = e := by
  cases h <;> simp [normal, Option.filter_filter]

end ErrorObject

namespace Message

/-- The members that a message of the value's kind has. -/
def kindNames (v : Json) : List String :=
  if (v.member? "method").isSome then ["jsonrpc", "id", "method", "params"]
  else ["jsonrpc", "id", "result", "error"]

theorem kindNames_of_method {v w : Json} (h : v.member? "method" = some w) :
    kindNames v = ["jsonrpc", "id", "method", "params"] := by
  simp [kindNames, h]

theorem kindNames_of_no_method {v : Json} (h : v.member? "method" = none) :
    kindNames v = ["jsonrpc", "id", "result", "error"] := by
  simp [kindNames, h]

/-- Just the members of the value's kind, no identifier that is `null`, and an error in its normal
form. -/
def normalForm (v : Json) : Json :=
  match v with
  | .obj ms =>
    .obj <| (Json.Members.keep (kindNames v) "id" ms).mapValues fun k w =>
      if k = "error" then ErrorObject.normalForm w else w
  | v => v

/-- Reads a value and writes it again. -/
def rerender (v : Json) : Except Error Json :=
  (ofJson v).map toJson

theorem get?_normalForm {ms : Json.Members} (hms : ms.Sorted) (names : List String) (k : String) :
    Json.Members.get? k ((ms.keep names "id").mapValues fun k w =>
        if k = "error" then ErrorObject.normalForm w else w) =
      if k ∈ names then
        if k = "id" then (ms.get? k).filter (· ≠ .null)
        else if k = "error" then (ms.get? k).map ErrorObject.normalForm
        else ms.get? k
      else none := by
  rw [Json.Members.get?_mapValues, hms.get?_keep]
  rcases Decidable.em (k = "error") with rfl | herror
  · have hid : "error" ≠ "id" := by decide
    simp only [if_neg hid, if_true]
    split <;> rfl
  · simp only [if_neg herror, Option.map_id']

/-! ### The members that are written -/

section

variable (k : String) (id : RequestId) (method : String) (params : Option Json)

theorem get?_fields_request :
    Json.Members.get? k (.ofList (fields (.request ⟨id, method, params⟩))) =
      if k = "params" then params else if k = "method" then some (.str method)
      else if k = "id" then some id.toJson else if k = "jsonrpc" then some version else none := by
  rw [fields, Json.Members.get?_ofList_append_toList]
  all_goals simp [Json.Members.ofList, Json.Members.get?_insert, Json.Members.get?]

theorem get?_fields_notification :
    Json.Members.get? k (.ofList (fields (.notification ⟨method, params⟩))) =
      if k = "params" then params else if k = "method" then some (.str method)
      else if k = "jsonrpc" then some version else none := by
  rw [fields, Json.Members.get?_ofList_append_toList]
  all_goals simp [Json.Members.ofList, Json.Members.get?_insert, Json.Members.get?]

theorem get?_fields_result (r : Json) :
    Json.Members.get? k (.ofList (fields (.response ⟨id, .result r⟩))) =
      if k = "result" then some r else if k = "id" then some id.toJson
      else if k = "jsonrpc" then some version else none := by
  simp [fields, Json.Members.ofList, Json.Members.get?_insert, Json.Members.get?]

theorem get?_fields_failure (e : ErrorObject) :
    Json.Members.get? k (.ofList (fields (.response ⟨id, .failure e⟩))) =
      if k = "error" then some e.toJson else if k = "id" then some id.toJson
      else if k = "jsonrpc" then some version else none := by
  simp [fields, Json.Members.ofList, Json.Members.get?_insert, Json.Members.get?]

end

theorem toJson_eq_normalForm {v : Json} {m : Message} (hv : v.Canonical) (hm : ofJson v = .ok m) :
    m.toJson = normalForm v := by
  obtain ⟨hpasses, hform⟩ := (ofJson_eq_iff_judged hv).mp hm
  obtain ⟨ms, rfl⟩ := hpasses .object
  have hversion : Json.Members.get? "jsonrpc" ms = some version := hpasses .version
  -- The two objects are compared name by name.
  refine congrArg Json.obj (Json.Members.Sorted.ext (Json.Members.sorted_ofList _)
    (Json.Members.sorted_mapValues (Json.Members.sorted_keep hv.1 _ _) _) fun k => ?_)
  rw [get?_normalForm hv.1]
  cases hform with
  | @request id method hmethod hid =>
    have hnull := id.toJson_ne_null
    have hnames := kindNames_of_method hmethod
    simp only [Json.member?] at hmethod hid ⊢
    rw [hnames, get?_fields_request]
    grind
  | @notification method hmethod hid =>
    have hnull : (Json.Members.get? "id" ms).filter (· ≠ .null) = none := by
      refine Option.filter_eq_none_iff.mpr fun w hw hne => ?_
      exact hid ⟨w, hw, of_decide_eq_true hne⟩
    have hnames := kindNames_of_method hmethod
    simp only [Json.member?] at hmethod ⊢
    rw [hnames, get?_fields_notification]
    grind
  | @result id r hmethod hid hresult herror =>
    have hnull := id.toJson_ne_null
    have hnames := kindNames_of_no_method hmethod
    simp only [Json.member?] at hmethod hid hresult herror
    rw [hnames, get?_fields_result]
    grind
  | @failure id w e hmethod hid hresult herror hform =>
    have hnull := id.toJson_ne_null
    have hwritten := hform.toJson_eq (hv.2.of_get? herror)
    have hnames := kindNames_of_no_method hmethod
    simp only [Json.member?] at hmethod hid hresult herror
    rw [hnames, get?_fields_failure]
    grind

theorem Form.normal_eq {v : Json} {m : Message} (h : Form v m) : m.normal = m := by
  cases h with
  | failure _ _ _ _ hform => rw [normal, hform.normal_eq]
  | _ => rfl

/-- **What was read is read again from what is written for it**, without exception. -/
theorem ofJson_toJson_of_ofJson {v : Json} {m : Message} (hv : v.Canonical)
    (hm : ofJson v = .ok m) : ofJson m.toJson = .ok m := by
  have hform := ((ofJson_eq_iff_judged hv).mp hm).2
  rw [ofJson_toJson, hform.normal_eq]

/-- **What is written for an accepted value is its normal form**, and it reads back as the message
that was accepted. So a second round changes nothing, and two accepted values are one message
exactly if their normal forms are equal. -/
theorem normalForm_of_ofJson (v : Json) (hv : v.Canonical) (m : Message) (hm : ofJson v = .ok m) :
    m.toJson = normalForm v ∧ ofJson m.toJson = .ok m ∧
      rerender v = .ok (normalForm v) ∧ (rerender v).bind rerender = rerender v ∧
      ∀ w, w.Canonical → ∀ m', ofJson w = .ok m' → (m = m' ↔ normalForm v = normalForm w) := by
  have hwritten := toJson_eq_normalForm hv hm
  have hback := ofJson_toJson_of_ofJson hv hm
  have honce : rerender v = .ok m.toJson := by rw [rerender, hm]; rfl
  have htwice : rerender m.toJson = .ok m.toJson := by rw [rerender, hback]; rfl
  refine ⟨hwritten, hback, by rw [honce, hwritten], by rw [honce]; exact htwice,
    fun w hw m' hm' => ⟨?_, fun hsame => ?_⟩⟩
  · rintro rfl
    rw [← hwritten, toJson_eq_normalForm hw hm']
  · rw [← hwritten, ← toJson_eq_normalForm hw hm'] at hsame
    rw [hsame, ofJson_toJson_of_ofJson hw hm'] at hback
    exact (Except.ok.inj hback).symm

/-- An error written as an array with data that are `null`, beside a member that no message has. -/
theorem normalForm_of_ofJson_array :
    (Json.obj [("error", .arr [.int 1, .str "no", .null]), ("id", .int 7), ("jsonrpc", .str "2.0"),
      ("trace", .null)]).Canonical ∧
    toJson (.response ⟨.number 7, .failure ⟨1, "no", none⟩⟩) =
      normalForm (.obj [("error", .arr [.int 1, .str "no", .null]), ("id", .int 7),
        ("jsonrpc", .str "2.0"), ("trace", .null)]) := by
  have hv : (Json.obj [("error", .arr [.int 1, .str "no", .null]), ("id", .int 7),
      ("jsonrpc", .str "2.0"), ("trace", .null)]).Canonical := by
    refine ⟨?_, ?_⟩
    · unfold Json.Members.Sorted
      decide
    · simp [Json.CanonicalMembers, Json.Canonical, Json.CanonicalItems, Json.inRange]
  exact ⟨hv, (normalForm_of_ofJson _ hv (.response ⟨.number 7, .failure ⟨1, "no", none⟩⟩) rfl).1⟩

end Message
end Switchboard
