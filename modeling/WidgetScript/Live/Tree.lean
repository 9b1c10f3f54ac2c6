import WidgetScript.Live.Command
import WidgetScript.Text.Diagnostic

/-! The live tree is what exists: entities by id, each with its parent and the ids of its
children. It outlives reloads and changes by commands alone. A command that names an
entity which is not there is ignored with a warning. -/
namespace WidgetScript

/-- One instantiated widget. Its handle is never used again in the same tree. -/
structure Entity where
  handle : Nat
  kind : Kind
  id : String
  parent : Option String
  children : List String
  props : Properties

structure LiveTree where
  entities : Fields Entity
  roots : List String
  nextHandle : Nat

namespace LiveTree

def empty : LiveTree := ⟨[], [], 0⟩

def get? (t : LiveTree) (id : String) : Option Entity := Fields.get? t.entities id

def contains (t : LiveTree) (id : String) : Bool := (t.get? id).isSome

def size (t : LiveTree) : Nat := t.entities.length

def walk (t : LiveTree) : (levels : Nat) → List String → List String
  | 0, _ => []
  | levels + 1, ids => ids.flatMap fun id =>
      id :: match t.get? id with
        | some e => t.walk levels e.children
        | none => []

/-- The ids in pre-order, roots first. A branch of entities that are each other's
children is no longer than their number, and an id without entity may end it. -/
def ids (t : LiveTree) : List String := t.walk (t.size + 1) t.roots

def modify (t : LiveTree) (e : Entity) : LiveTree :=
  { t with entities := Fields.insert e.id e t.entities }

def children? (t : LiveTree) : Option String → Option (List String)
  | some id => (t.get? id).map Entity.children
  | none => some t.roots

def setChildren (t : LiveTree) (parent : Option String) (children : List String) : LiveTree :=
  match parent with
  | some id =>
      match t.get? id with
      | some e => t.modify { e with children }
      | none => t
  | none => { t with roots := children }

def prune (entities : Fields Entity) : List String → Fields Entity
  | [] => entities
  | id :: ids =>
      match _found : Fields.get? entities id with
      | some e => prune (Fields.erase entities id) (e.children ++ ids)
      | none => prune entities ids
termination_by ids => (entities.length, ids.length)
decreasing_by
  · exact Prod.Lex.left _ _ (Fields.length_erase_lt _found)
  · exact Prod.Lex.right _ (by simp)

def warning (text : String) : List LogLine := [⟨.warn, text⟩]

def create (t : LiveTree) (parent : Option String) (spec : Spec) : LiveTree × List LogLine :=
  match t.children? parent with
  | some siblings =>
      let t := t.setChildren parent (siblings ++ [spec.id])
      let e : Entity := ⟨t.nextHandle, spec.kind, spec.id, parent, [], spec.props⟩
      ({ t.modify e with nextHandle := t.nextHandle + 1 }, [])
  | none =>
      (t, warning ("create `" ++ spec.id ++ "`: unknown parent `" ++ parent.getD "" ++ "`"))

def update (t : LiveTree) (id : String) (changed : Properties) : LiveTree × List LogLine :=
  match t.get? id with
  | some e => (t.modify { e with props := Fields.extend e.props changed }, [])
  | none => (t, warning ("update: unknown entity `" ++ id ++ "`"))

def reorder (t : LiveTree) (parent : Option String) (order : List String) :
    LiveTree × List LogLine :=
  match t.children? parent with
  | some _ => (t.setChildren parent order, [])
  | none => (t, warning ("reorder: unknown parent `" ++ parent.getD "" ++ "`"))

def destroy (t : LiveTree) (id : String) : LiveTree × List LogLine :=
  match t.get? id with
  | some e =>
      let t := match t.children? e.parent with
        | some siblings => t.setChildren e.parent (siblings.filter (· != id))
        | none => t
      ({ t with entities := prune t.entities [id] }, [])
  | none => (t, warning ("destroy: unknown entity `" ++ id ++ "`"))

def apply (t : LiveTree) : Command → LiveTree × List LogLine
  | .create parent spec => t.create parent spec
  | .update id changed => t.update id changed
  | .reorder parent order => t.reorder parent order
  | .destroy id => t.destroy id

def applyAll (t : LiveTree) : List Command → LiveTree × List LogLine
  | [] => (t, [])
  | c :: cs =>
      let (t, lines) := t.apply c
      let (t, more) := t.applyAll cs
      (t, lines ++ more)

end LiveTree
end WidgetScript
