import WidgetScript.Value
import WidgetScript.Json.Reader

/-! Input events name the widget that they come from and the handler that is to answer
them, and may carry parameters. -/
namespace WidgetScript

structure Event where
  widgetId : String
  handlerName : String
  params : Fields Value

namespace Event

/-- The map that a handler receives: the parameters, after the widget's id unless the
event brings an `id` of its own. -/
def paramsValue (e : Event) : Value :=
  if Fields.contains e.params "id" then .map e.params
  else .map (("id", .str e.widgetId) :: e.params)

inductive Slot where
  | widget (id : String)
  | handler (name : String)
  | params (fields : List (String × Json))
  | other

open Json.Reader in
/-- Reads a field by its key; the value of an unknown key is ignored. -/
def slot : Json.Reader Slot := do
  skipSpace
  let key ← string
  skipSpace
  expect ':'
  match key with
  | "widget_id" => do
      skipSpace
      .widget <$> string
  | "handler_name" => do
      skipSpace
      .handler <$> string
  | "params" => do
      match ← value (Json.maxLevels - 1) with
      | .object fields => pure (.params fields)
      | _ => failure
  | _ => do
      ignored ((← get).length + 1)
      pure .other

def atMostOne {α : Type} : List α → Option (Option α)
  | [] => some none
  | [x] => some (some x)
  | _ => none

/-- Every known key occurs at most once, and only the parameters may be missing. -/
def ofSlots? (slots : List Slot) : Option Event := do
  let widget ← atMostOne (slots.filterMap fun | .widget id => some id | _ => none)
  let handler ← atMostOne (slots.filterMap fun | .handler name => some name | _ => none)
  let params ← atMostOne (slots.filterMap fun | .params fields => some fields | _ => none)
  some ⟨← widget, ← handler, Fields.ofList (Value.ofFields (params.getD []))⟩

def ofArray? : Json → Option Event
  | .array [.string widget, .string handler] => some ⟨widget, handler, []⟩
  | .array [.string widget, .string handler, .object fields] =>
      some ⟨widget, handler, Fields.ofList (Value.ofFields fields)⟩
  | _ => none

open Json.Reader in
def read : Json.Reader Event := do
  skipSpace
  match ← get with
  | '{' :: cs => do
      set cs
      let slots ← sequenceOf slot '}'
      ofSlots? slots
  | _ => do
      let json ← value Json.maxLevels
      ofArray? json

def parse? (text : String) : Option Event := Json.Reader.run? read text

end Event
end WidgetScript
