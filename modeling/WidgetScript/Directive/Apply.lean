import WidgetScript.Directive.Widget

/-! A directive changes the declaration, or fails and leaves it as it is. A widget that it
brings in must fit: its ids are new, windows stay on top, the tree keeps its depth, and an
entity that lives under the same parent has the same kind, so that the live tree can
follow. A forest can also be edited in place, which an error does not take back. -/
namespace WidgetScript

/-- What runs on a forest and may fail on the way. The forest stays as it is by then. -/
abbrev InPlace := ExceptT DispatchError (StateM Forest)

namespace InPlace

def check {α : Type} (r : Except DispatchError α) : InPlace α := fun forest => (r, forest)

def edit (id : String) (g : Widget → Widget) : InPlace Unit := fun forest =>
  (.ok (), forest.edit id g)

end InPlace

namespace Directive

def pair (first second : String) : Value → Except ValueFault (List (String × Value))
  | .list [.number a, .number b] => .ok [(first, .number a), (second, .number b)]
  | .list _ => .error .expectedTwoNumbers
  | .map fields =>
      match Fields.get? fields first, Fields.get? fields second with
      | some (.number a), some (.number b) => .ok [(first, .number a), (second, .number b)]
      | _, _ => .error (.expectedNumeric first second)
  | v => .error (.expectedPair first second v.typeName)

def assignments (setter : Setter) (value : Value) : Except ValueFault (List (String × Value)) :=
  match setter, value with
  | .text, v => .ok [("text", v)]
  | .value, v => .ok [("value", v)]
  | .visible, .bool b => .ok [("visible", .bool b)]
  | .visible, v => .error (.expectedBool v.typeName)
  | .image, .str s => .ok [("source", .str s)]
  | .image, .symbol s => .ok [("source", .symbol s)]
  | .image, v => .error (.expectedImage v.typeName)
  | .position, v => pair "x" "y" v
  | .size, v => pair "width" "height" v
  | .style, .map fields => .ok fields
  | .style, v => .error (.expectedStyle v.typeName)
  | .property, .map fields =>
      match (Fields.get? fields "name").bind Value.str? with
      | some name => .ok [(name, (Fields.get? fields "value").getD .nil)]
      | none => .error .expectedName
  | .property, v => .error (.expectedNameAndValue v.typeName)

/-- The properties that a list of assignments gives, where none means removal. -/
def coerceAll : List (String × Value) → Except ValueFault (List (String × Option Property))
  | [] => .ok []
  | (key, v) :: rest =>
      if key = "id" then .error .idFixed
      else
        match Property.coerce key v with
        | .error reason => .error (.misfit key reason)
        | .ok p => do
            let ps ← coerceAll rest
            .ok ((key, p) :: ps)

def assign (props : Properties) : List (String × Option Property) → Properties
  | [] => props
  | (key, some p) :: rest => assign (Fields.insert key p props) rest
  | (key, none) :: rest => assign (Fields.erase props key) rest

def firstClash? (taken : String → Bool) (seen : List String) : List String → Option String
  | [] => none
  | id :: ids =>
      if id ∈ seen ∨ taken id then some id else firstClash? taken (id :: seen) ids

/-- The ids of `w` have to be new; those of a subtree that it replaces are free. -/
def checkIds (forest : Forest) (replaced : List String) (action : Action) (w : Widget) :
    Except DispatchError Unit :=
  let taken id := forest.contains id && !replaced.contains id
  match firstClash? taken [] (w.preorder.map (·.id)) with
  | some id => .error (.duplicateId id action)
  | none => .ok ()

/-- An entity cannot change its kind and stay under its parent. -/
def checkKinds (live : LiveTree) (parent : Option String) (w : Widget) :
    Except ValueFault Unit :=
  let clash := (w.placed parent).findSome? fun (parent, n) =>
    match live.get? n.id with
    | some e =>
        if e.parent = parent ∧ e.kind ≠ n.kind then some (ValueFault.kindTaken n.id e.kind n.kind)
        else none
    | none => none
  match clash with
  | some fault => .error fault
  | none => .ok ()

def checkDepth (above : Nat) (w : Widget) : Except ValueFault Unit :=
  if above + w.depth > Widget.maxDepth then .error (.tooDeep Widget.maxDepth) else .ok ()

/-- The widget after the change that a directive asks for, where `target` is its place in
the forest. -/
def change (forest : Forest) (live : LiveTree) (d : Directive) (target : Widget) :
    Except DispatchError Widget := do
  let orBad {α : Type} (r : Except ValueFault α) : Except DispatchError α :=
    r.mapError (.badValue d.target d.action)
  let level := (forest.level? d.target).getD 1
  match d.action with
  | .set setter =>
      let given ← orBad (assignments setter d.value)
      let props ← orBad (coerceAll given)
      .ok { target with props := assign target.props props }
  | .appendChild =>
      let child ← orBad (Widget.ofValue d.value)
      if !target.kind.isContainer then orBad (.error .noChildrenAllowed)
      else if child.containsWindow then orBad (.error .windowPlacement)
      else
        checkIds forest [] d.action child
        orBad (checkKinds live (some d.target) child)
        orBad (checkDepth level child)
        .ok { target with children := target.children ++ [child] }
  | .removeChild =>
      match d.value.str? with
      | none => orBad (.error .expectedChildId)
      | some id =>
          match Widget.takeSibling? id target.children with
          | none => orBad (.error (.notAChild id))
          | some (_, children) => .ok { target with children }
  | .replace =>
      let w ← orBad (Widget.ofValue d.value)
      let isRoot := forest.roots.any (·.id = d.target)
      if w.id ≠ d.target then orBad (.error (.replacementId w.id))
      else if w.children.any Widget.containsWindow || (w.kind == .window) != isRoot then
        orBad (.error .windowPlacement)
      else
        checkIds forest (target.preorder.map (·.id)) d.action w
        orBad (checkKinds live (forest.parent? d.target) w)
        orBad (checkDepth (level - 1) w)
        .ok w

def apply (d : Directive) (forest : Forest) (live : LiveTree) : Except DispatchError Forest :=
  match forest.find? d.target with
  | none => .error (.unknownTarget d.target d.action)
  | some target => do
      let changed ← d.change forest live target
      .ok (forest.edit d.target fun _ => changed)

open InPlace

/-- The checks of an action in their order, and then the edit. -/
def performOn (forest : Forest) (live : LiveTree) (d : Directive) (target : Widget) :
    InPlace Unit := do
  let orBad {α : Type} (r : Except ValueFault α) : InPlace α :=
    check (r.mapError (DispatchError.badValue d.target d.action))
  let level := (forest.level? d.target).getD 1
  match d.action with
  | .set setter =>
      let given ← orBad (assignments setter d.value)
      let props ← orBad (coerceAll given)
      edit d.target fun w => { w with props := assign w.props props }
  | .appendChild =>
      let child ← orBad (Widget.ofValue d.value)
      if !target.kind.isContainer then orBad (.error .noChildrenAllowed)
      else if child.containsWindow then orBad (.error .windowPlacement)
      else
        check (checkIds forest [] d.action child)
        orBad (checkKinds live (some d.target) child)
        orBad (checkDepth level child)
        edit d.target fun w => { w with children := w.children ++ [child] }
  | .removeChild =>
      match d.value.str? with
      | none => orBad (.error .expectedChildId)
      | some id =>
          match Widget.takeSibling? id target.children with
          | none => orBad (.error (.notAChild id))
          | some (_, children) => edit d.target fun w => { w with children }
  | .replace =>
      let w ← orBad (Widget.ofValue d.value)
      let isRoot := forest.roots.any (·.id = d.target)
      if w.id ≠ d.target then orBad (.error (.replacementId w.id))
      else if w.children.any Widget.containsWindow || (w.kind == .window) != isRoot then
        orBad (.error .windowPlacement)
      else
        check (checkIds forest (target.preorder.map (·.id)) d.action w)
        orBad (checkKinds live (forest.parent? d.target) w)
        orBad (checkDepth (level - 1) w)
        edit d.target fun _ => w

def perform (d : Directive) (live : LiveTree) : InPlace Unit := do
  let forest ← get
  match forest.find? d.target with
  | none => check (.error (.unknownTarget d.target d.action))
  | some target => performOn forest live d target

end Directive
end WidgetScript
