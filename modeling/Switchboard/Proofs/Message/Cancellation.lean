import Switchboard.Message.Basic

/-!
# Cancellations on the wire

The notification that a `Cancellation` is sent as reads back as that cancellation. Only a
notification with the method `notifications/cancelled` and parameters that can be read tells one
(`Notification.Tells`).
-/

namespace Switchboard
namespace Cancellation

theorem toJson_mk (id : RequestId) (reason : Option String) :
    toJson ⟨id, reason⟩ =
      .obj (reason.toList.map (fun r => ("reason", .str r)) ++ [("requestId", id.toJson)]) := by
  have hlt : "reason" < "requestId" := by decide
  cases reason <;>
    simp [toJson, fields, Json.object, Json.Members.ofList, Json.Members.insert, hlt]

theorem ofJson_toJson (c : Cancellation) : ofJson c.toJson = .ok c := by
  obtain ⟨id, reason⟩ := c
  rw [toJson_mk]
  cases reason <;>
    simp [ofJson, record, Record.read, Record.of, Record.andThen, Record.required, Record.optional,
      Record.withDefault, Record.checkMembers, Json.Members.get?, RequestId.ofJson_toJson,
      Shape.nullable, Shape.text, Except.map]

/-- **A cancellation is understood by the peer as it was meant.** -/
theorem cancellation?_toNotification (c : Cancellation) :
    c.toNotification.cancellation? = some c := by
  simp [Notification.cancellation?, toNotification, ofJson_toJson, Except.toOption]

@[simp]
theorem subject?_toMessage (c : Cancellation) : c.toMessage.subject? = some c.id := by
  simp [toMessage, Message.subject?, cancellation?_toNotification]

end Cancellation

namespace Notification

/-- A notification has the method of a cancellation, and its parameters read as this one. -/
def Tells (n : Notification) (c : Cancellation) : Prop :=
  n.method = Cancellation.method ∧ ∃ params, n.params = some params ∧
    Cancellation.ofJson params = .ok c

theorem cancellation?_eq_some_iff {n : Notification} {c : Cancellation} :
    n.cancellation? = some c ↔ n.Tells c := by
  unfold cancellation? Tells
  by_cases hm : n.method = Cancellation.method
  · cases hp : n.params with
    | none => simp [hm]
    | some params => cases hc : Cancellation.ofJson params <;> simp [hm, hc, Except.toOption]
  · simp [hm]

/-- The parameters may also be an array, in the order of the fields. -/
example : Tells ⟨"notifications/cancelled", some (.arr [.int 1, .str "stop"])⟩
    ⟨.number 1, some "stop"⟩ :=
  ⟨rfl, _, rfl, rfl⟩

theorem cancellation?_eq_none {n : Notification} (h : ∀ c, ¬ n.Tells c) :
    n.cancellation? = none := by
  cases hc : n.cancellation? with
  | none => rfl
  | some c => exact absurd (cancellation?_eq_some_iff.1 hc) (h c)

end Notification
end Switchboard
