import Switchboard.Message.Reader

/-!
# Messages read back

A message reads back from its wire form as it was, up to one thing: the data of an error object that
are `null` count as none (`Message.normal`).
-/

namespace Switchboard

namespace ErrorObject

/-- The error object as its reader delivers it: data that are `null` are left out. -/
def normal (e : ErrorObject) : ErrorObject :=
  { e with data := e.data.filter (· ≠ .null) }

theorem toJson_mk (code : Int64) (message : String) (data : Option Json) :
    toJson ⟨code, message, data⟩ =
      .obj (("code", .int code.toInt) :: data.toList.map (fun d => ("data", d)) ++
        [("message", .str message)]) := by
  have h₁ : ¬ "message" < "code" := by decide
  have h₂ : ¬ "data" < "code" := by decide
  have h₃ : "data" < "message" := by decide
  cases data <;>
    simp [toJson, fields, Json.object, Json.Members.ofList, Json.Members.insert, h₁, h₂, h₃]

theorem int64_toInt (n : Int64) : Shape.int64 (.int n.toInt) = .ok n.toInt :=
  if_pos ⟨n.minValue_le_toInt, n.toInt_le⟩

theorem nullable_any (d : Json) :
    Shape.nullable Shape.any d = .ok ((some d).filter (· ≠ .null)) := by
  cases d <;> rfl

/-- **An error object reads back**, without data that are `null`. -/
theorem ofJson_toJson (e : ErrorObject) : ofJson e.toJson = .ok e.normal := by
  obtain ⟨code, message, data⟩ := e
  rw [toJson_mk]
  cases data <;>
    simp [ofJson, record, Record.read, Record.of, Record.andThen, Record.required, Record.optional,
      Record.withDefault, Record.checkMembers, Json.Members.get?, int64_toInt, nullable_any,
      Shape.text, Except.map, normal, Int64.ofInt_toInt]

end ErrorObject

namespace Message

/-- The message as its reader delivers it. -/
def normal : Message → Message
  | .response ⟨id, .failure e⟩ => .response ⟨id, .failure e.normal⟩
  | m => m

/-! ### Members in their order -/

theorem toJson_request (id : RequestId) (method : String) (params : Option Json) :
    toJson (.request ⟨id, method, params⟩) =
      .obj ([("id", id.toJson), ("jsonrpc", version), ("method", .str method)] ++
        params.toList.map fun p => ("params", p)) := by
  have h₁ : "id" < "jsonrpc" := by decide
  have h₂ : ¬ "method" < "id" := by decide
  have h₃ : ¬ "method" < "jsonrpc" := by decide
  have h₄ : ¬ "params" < "id" := by decide
  have h₅ : ¬ "params" < "jsonrpc" := by decide
  have h₆ : ¬ "params" < "method" := by decide
  cases params <;>
    simp [toJson, fields, Json.object, Json.Members.ofList, Json.Members.insert, h₁, h₂, h₃, h₄, h₅,
      h₆]

theorem toJson_notification (method : String) (params : Option Json) :
    toJson (.notification ⟨method, params⟩) =
      .obj ([("jsonrpc", version), ("method", .str method)] ++
        params.toList.map fun p => ("params", p)) := by
  have h₁ : ¬ "method" < "jsonrpc" := by decide
  have h₂ : ¬ "params" < "jsonrpc" := by decide
  have h₃ : ¬ "params" < "method" := by decide
  cases params <;>
    simp [toJson, fields, Json.object, Json.Members.ofList, Json.Members.insert, h₁, h₂, h₃]

theorem toJson_result (id : RequestId) (v : Json) :
    toJson (.response ⟨id, .result v⟩) =
      .obj [("id", id.toJson), ("jsonrpc", version), ("result", v)] := by
  have h₁ : "id" < "jsonrpc" := by decide
  have h₂ : ¬ "result" < "id" := by decide
  have h₃ : ¬ "result" < "jsonrpc" := by decide
  simp [toJson, fields, Json.object, Json.Members.ofList, Json.Members.insert, h₁, h₂, h₃]

theorem toJson_failure (id : RequestId) (e : ErrorObject) :
    toJson (.response ⟨id, .failure e⟩) =
      .obj [("error", e.toJson), ("id", id.toJson), ("jsonrpc", version)] := by
  have h₁ : "id" < "jsonrpc" := by decide
  have h₂ : "error" < "id" := by decide
  simp [toJson, fields, Json.object, Json.Members.ofList, Json.Members.insert, h₁, h₂]

/-! ### Reading -/

theorem readId_of_get? {ms : Json.Members} {id : RequestId}
    (h : Json.Members.get? "id" ms = some id.toJson) : readId ms = .ok (some id) := by
  have hid := RequestId.ofJson_toJson id
  rw [readId, h]
  cases id with
  | number n => simp only [RequestId.toJson] at hid ⊢; rw [hid]
  | text s => rfl

section

variable {ms : Json.Members} (hversion : Json.Members.get? "jsonrpc" ms = some version)
include hversion

theorem ofJson_request {id : RequestId} {method : String}
    (hid : Json.Members.get? "id" ms = some id.toJson)
    (hmethod : Json.Members.get? "method" ms = some (.str method)) :
    ofJson (.obj ms) = .ok (.request ⟨id, method, Json.Members.get? "params" ms⟩) := by
  rw [ofJson, if_pos hversion, readId_of_get? hid, hmethod]

theorem ofJson_notification {method : String} (hid : Json.Members.get? "id" ms = none)
    (hmethod : Json.Members.get? "method" ms = some (.str method)) :
    ofJson (.obj ms) = .ok (.notification ⟨method, Json.Members.get? "params" ms⟩) := by
  have hread : readId ms = .ok none := by rw [readId, hid]
  rw [ofJson, if_pos hversion, hread, hmethod]

theorem ofJson_response {id : RequestId} (hid : Json.Members.get? "id" ms = some id.toJson)
    (hmethod : Json.Members.get? "method" ms = none) :
    ofJson (.obj ms) = readResponse id ms := by
  rw [ofJson, if_pos hversion, readId_of_get? hid, hmethod]

end

/-- **A message reads back from its wire form.** -/
theorem ofJson_toJson (m : Message) : ofJson m.toJson = .ok m.normal := by
  rcases m with ⟨id, method, params⟩ | ⟨method, params⟩ | ⟨id, v | e⟩
  · rw [toJson_request, @ofJson_request _ rfl id method rfl rfl]
    cases params <;> rfl
  · rw [toJson_notification]
    cases params <;> exact ofJson_notification rfl rfl rfl
  · rw [toJson_result, @ofJson_response _ rfl id rfl rfl]
    rfl
  · rw [toJson_failure, @ofJson_response _ rfl id rfl rfl, readResponse]
    simp [Json.Members.get?, ErrorObject.ofJson_toJson, normal]

end Message
end Switchboard
