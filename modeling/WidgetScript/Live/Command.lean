import WidgetScript.Widget

/-! Commands are the changes that a live tree goes through and that a renderer follows. A
command without a parent addresses the top level. -/
namespace WidgetScript

structure Spec where
  kind : Kind
  id : String
  props : Properties

def Widget.spec (w : Widget) : Spec := ⟨w.kind, w.id, w.props⟩

inductive Command where
  /-- A new last child of `parent`. -/
  | create (parent : Option String) (spec : Spec)
  /-- The listed properties get new values, all others keep theirs. -/
  | update (id : String) (changed : Properties)
  /-- The children of `parent`, all of them, in their new order. -/
  | reorder (parent : Option String) (order : List String)
  /-- An entity goes away with its whole subtree. -/
  | destroy (id : String)

namespace Command

def parentJson : Option String → Json
  | some id => .string id
  | none => .null

def json : Command → Json
  | .create parent spec => .object [("op", .string "create"), ("parent", parentJson parent),
      ("node", .object [("kind", .string spec.kind.name), ("id", .string spec.id),
        ("props", Properties.json spec.props)])]
  | .update id changed => .object [("op", .string "update_properties"), ("id", .string id),
      ("changed", Properties.json changed)]
  | .reorder parent order => .object [("op", .string "reorder"), ("parent", parentJson parent),
      ("order", .array (order.map .string))]
  | .destroy id => .object [("op", .string "destroy"), ("id", .string id)]

end Command
end WidgetScript
