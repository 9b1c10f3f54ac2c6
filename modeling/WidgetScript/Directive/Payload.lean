import WidgetScript.Directive.Fault
import WidgetScript.Json.Reader

/-! What a handler gives is its payload: nil, a list of directives, a map with a list of
them under `updates`, a single directive, or a JSON text of one of these. A directive is a
map too; its target stands under `target_id` or, if there is none, under `id`. -/
namespace WidgetScript

namespace Payload

def plainEntries : Value → Except PayloadFault (List Value)
  | .nil => .ok []
  | .list items => .ok items
  | .map fields =>
      match Fields.get? fields "updates" with
      | some (.list items) => .ok items
      | some .nil => .ok []
      | some v => .error (.updatesNotList v.typeName)
      | none => if Fields.contains fields "action" then .ok [.map fields] else .error .noUpdates
  | v => .error (.unexpected v.typeName)

/-- The entries of a payload, each to be read as a directive. A JSON text is read once: a
string inside it is no payload. -/
def entries : Value → Except PayloadFault (List Value)
  | .str text =>
      match Json.parse? text with
      | some json => plainEntries (Value.ofJson json)
      | none => .error .invalidJson
  | v => plainEntries v

end Payload

namespace Directive

def textOf (fault : PayloadFault) (v : Value) : Except DispatchError String :=
  match v.str? with
  | some s => .ok s
  | none => .error (.malformedPayload fault)

def ofValue : Value → Except DispatchError Directive
  | .map fields =>
      match (Fields.get? fields "target_id").or (Fields.get? fields "id") with
      | none => .error (.malformedPayload .noTarget)
      | some v => do
          let target ← textOf .targetNotString v
          match Fields.get? fields "action" with
          | none => .error (.malformedPayload (.noAction target))
          | some v => do
              let name ← textOf .actionNotString v
              match Action.ofName? name with
              | none => .error (.unknownAction target name)
              | some action =>
                  .ok ⟨target, action, (Fields.get? fields "value").getD .nil⟩
  | v => .error (.malformedPayload (.notMap v.typeName))

end Directive
end WidgetScript
