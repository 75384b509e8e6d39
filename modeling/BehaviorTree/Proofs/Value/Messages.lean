import BehaviorTree.Engine.Binding
import BehaviorTree.Proofs.Number.Integers
import BehaviorTree.Proofs.Value.Fields
import BehaviorTree.Remote.Script

/-!
# Parts of messages that are sent on

What stands at a path in a message becomes a value when it is read, and a message again when it is
part of a request. Both together change nothing, with one exception: an integer that only fits in 64
bits without a sign has no value of its own kind. It becomes the nearest double, so another number
is sent on, and numbers that differ become the same.
-/

namespace BehaviorTree

/-- The integer only fits in 64 bits without a sign. -/
def Json.IsUnsigned : Json → Prop
  | integer number => 0x8000000000000000 ≤ number.1
  | _ => False

namespace Value

/-- An integer without a sign becomes the double nearest to it. -/
theorem toJson_ofJson_of_unsigned {number : WideInteger}
    (unsigned : (Json.integer number).IsUnsigned) :
    ∃ rounded : FiniteBinary64, rounded.1 = .ofInt number.1 ∧
      (ofJson (.integer number)).toJson = .real rounded := by
  have large : ¬ number.1 < 0x8000000000000000 := Int.not_lt.2 unsigned
  have finite := Binary64.isFinite_ofInt (Binary64.log2_le_of_wide number.2.1 number.2.2)
  refine ⟨⟨.ofInt number.1, finite⟩, rfl, ?_⟩
  simp only [ofJson, large, if_false, toJson, Json.ofBinary64, finite, dite_true]

/-- A message is the same after it was a value unless it is an integer without a sign. -/
theorem toJson_ofJson_eq_iff (content : Json) :
    (ofJson content).toJson = content ↔ ¬ content.IsUnsigned := by
  cases content with
  | integer number =>
    by_cases unsigned : (Json.integer number).IsUnsigned
    · obtain ⟨rounded, -, sent⟩ := toJson_ofJson_of_unsigned unsigned
      simp [sent, unsigned]
    · have small : number.1 < 0x8000000000000000 := Int.not_le.1 unsigned
      have same : (Int64.ofInt number.1).toInt = number.1 :=
        Int64.toInt_ofInt_of_le number.2.1 small
      simp only [ofJson, small, if_true, toJson, Json.ofInt64, same, unsigned, not_false_eq_true]
  | real number => simp [ofJson, toJson, Json.ofBinary64, number.2, Json.IsUnsigned]
  | null => exact iff_of_true rfl id
  | bool value => exact iff_of_true rfl id
  | string text => exact iff_of_true rfl id
  | array items => exact iff_of_true rfl id
  | object members => exact iff_of_true rfl id

end Value

section Requests

variable {σ : Type} {context : Context σ} {operation : RemoteOperation} {field : FieldSpec}
  {fields : FieldTable} {path : String} {value : Value}

theorem coerceFor_message (name : String) (value : Value) :
    coerceFor name value .message = .ok (.message value.toJson) := by
  cases value <;> rfl

/-- The name of the service is no message. -/
theorem ne_service_of_message (listed : (NodeKind.remote operation).field? field.name = some field)
    (isMessage : field.kind = .value .message) : field.name ≠ "service" := by
  intro service
  have isText : ((NodeKind.remote operation).field? "service").map FieldSpec.kind =
      some (.value .string) := by
    cases operation <;> decide
  rw [service] at listed
  rw [listed, Option.map_some, isMessage] at isText
  cases isText

/-- A field that takes a message is filled with the value of a variable, and becomes a part of the
request as that message. -/
theorem requestMember_fill (listed : (NodeKind.remote operation).field? field.name = some field)
    (isMessage : field.kind = .value .message)
    (read : context.blackboard.resolveValue context.scope path = .ok value) :
    ∃ filled, Override.fill (.remote operation) context fields ⟨field.name, .path path⟩ =
        .ok filled ∧
      requestMember filled field = .ok [(field.name, value.toJson)] := by
  have noService := ne_service_of_message listed isMessage
  obtain ⟨name, kind, required⟩ := field
  obtain rfl : kind = .value .message := isMessage
  refine ⟨fields.insert name (.constant (.message value.toJson)), ?_, ?_⟩
  · simp only [Override.fill, Context.value, read, listed, Except.mapError, coerceFor_message,
      bind, Except.bind, pure, Except.pure]
  · simp only [requestMember, if_neg noService, FieldTable.constant?, Table.get?_insert_self,
      coerceFor_message, Except.map, Value.toJson, bind, Except.bind, pure, Except.pure]

/-- The value that is read at a path into a message is the part at the end of the path. -/
theorem resolveValue_part {blackboard : Blackboard} {id : ScopeId} {entry : Entry}
    {content part : Json}
    (found : blackboard.entry id (Blackboard.splitPath path).1 = .ok entry)
    (holds : entry.value = .message content) (some : (Blackboard.splitPath path).2 ≠ [])
    (leads : content.follow (Blackboard.splitPath path).2 = .ok part) :
    blackboard.resolveValue id path = .ok (Value.ofJson part) := by
  rw [Blackboard.resolveValue_eq, found]
  simp only [Except.bind, Blackboard.followPath, holds, Value.field_message content some, leads,
    Except.map, Except.mapError]

end Requests

/-- A message that becomes a value and a message again is the same, unless it is an integer without
a sign, which becomes a double. So what a variable holds at a path is what is sent in a field of a
request that takes a message, unless it is such an integer. -/
theorem parts_are_sent_unless_unsigned (part : Json) :
    ((Value.ofJson part).toJson = part ↔ ¬ part.IsUnsigned) ∧
    (∀ number : WideInteger, part = .integer number → part.IsUnsigned →
      ∃ rounded : FiniteBinary64, rounded.1 = .ofInt number.1 ∧
        (Value.ofJson part).toJson = .real rounded) ∧
    ∀ {σ : Type} (context : Context σ) (operation : RemoteOperation) (field : FieldSpec)
      (fields : FieldTable) (path : String) (entry : Entry) (content : Json),
      (NodeKind.remote operation).field? field.name = some field →
      field.kind = .value .message →
      context.blackboard.entry context.scope (Blackboard.splitPath path).1 = .ok entry →
      entry.value = .message content →
      (Blackboard.splitPath path).2 ≠ [] →
      content.follow (Blackboard.splitPath path).2 = .ok part →
      ∃ filled sent,
        Override.fill (.remote operation) context fields ⟨field.name, .path path⟩ = .ok filled ∧
        requestMember filled field = .ok [(field.name, sent)] ∧
        (sent = part ↔ ¬ part.IsUnsigned) := by
  refine ⟨Value.toJson_ofJson_eq_iff part, ?_, ?_⟩
  · rintro number rfl unsigned
    exact Value.toJson_ofJson_of_unsigned unsigned
  intro σ context operation field fields path entry content listed isMessage found holds some leads
  obtain ⟨filled, fills, sends⟩ : ∃ filled,
      Override.fill (.remote operation) context fields ⟨field.name, .path path⟩ = .ok filled ∧
        requestMember filled field = .ok [(field.name, (Value.ofJson part).toJson)] :=
    requestMember_fill listed isMessage (resolveValue_part found holds some leads)
  exact ⟨filled, _, fills, sends, Value.toJson_ofJson_eq_iff part⟩

/-- A message about a unit with a serial number. -/
def unitContext (serial : Json) : Context ScriptedService :=
  .atRoot ((Blackboard.empty.define .root "unit"
    ⟨.message (.object [("serial", serial)]), .zero, none⟩).toOption.getD default) .empty .empty []

/-- What is sent about a unit whose serial number is read from a variable. -/
def sentSerial (serial : Json) : Except BindingError (List (String × Json)) := do
  let filled ← Override.fill (.remote .grpc) (unitContext serial) .empty
    ⟨"input", .path "unit.serial"⟩
  requestMember filled (.optional "input" .message)

theorem small_serial_is_sent :
    (Value.ofJson (.integer ⟨7, by decide⟩)).toJson = .integer ⟨7, by decide⟩ ∧
      ∃ sent, sentSerial (.integer ⟨7, by decide⟩) = .ok [("input", sent)] ∧
        sent = .integer ⟨7, by decide⟩ := by
  have signed : ¬ (Json.integer ⟨7, by decide⟩).IsUnsigned := by
    simp [Json.IsUnsigned]
  obtain ⟨kept, -, sent⟩ := parts_are_sent_unless_unsigned (.integer ⟨7, by decide⟩)
  refine ⟨kept.2 signed, ?_⟩
  obtain ⟨filled, sent, fills, sends, same⟩ := sent
    (unitContext (.integer ⟨7, by decide⟩)) .grpc (.optional "input" .message) .empty
    "unit.serial" ⟨.message (.object [("serial", .integer ⟨7, by decide⟩)]), .zero, none⟩
    (.object [("serial", .integer ⟨7, by decide⟩)]) (by decide) rfl rfl rfl (by decide) rfl
  refine ⟨sent, ?_, same.2 signed⟩
  have filled_eq : Override.fill (.remote .grpc) (unitContext (.integer ⟨7, by decide⟩)) .empty
      ⟨"input", .path "unit.serial"⟩ = .ok filled := fills
  simp only [sentSerial, filled_eq]
  exact sends

/-- A large serial number is sent as another number, which many other ones are sent as, too. -/
theorem large_serials_are_confused :
    (Value.ofJson (.integer ⟨9223372036854775809, by decide⟩)).toJson ≠
        .integer ⟨9223372036854775809, by decide⟩ ∧
      (Json.integer ⟨9223372036854775809, by decide⟩).print = "9223372036854775809" ∧
      (sentSerial (.integer ⟨9223372036854775809, by decide⟩)).map
          (fun members => members.map fun member => (member.1, member.2.print)) =
        .ok [("input", "9.223372036854776e+18")] ∧
      (Value.ofJson (.integer ⟨9223372036854775809, by decide⟩)).toJson =
        (Value.ofJson (.integer ⟨9223372036854775810, by decide⟩)).toJson := by
  refine ⟨?_, by rfl, by rfl, by rfl⟩
  nofun

end BehaviorTree
