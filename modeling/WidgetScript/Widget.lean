import WidgetScript.Kind
import WidgetScript.Property
import WidgetScript.Text.Position

/-! A declaration says what the user interface should be: a forest whose roots are the
top-level windows. Places in it are named by ids, and an id that occurs twice means its
first node in pre-order, except to removal, which looks at a whole row of siblings before
it looks below them. -/
namespace WidgetScript

structure Widget where
  kind : Kind
  id : String
  props : Properties
  children : List Widget
  pos : Position

namespace Widget

def leaf (kind : Kind) (id : String) : Widget := ⟨kind, id, [], [], .none⟩

instance : Inhabited Widget := ⟨leaf .window ""⟩

/-- The limit on levels of widgets within one another, the window included. -/
def maxDepth : Nat := 64

mutual

def depth : Widget → Nat
  | ⟨_, _, _, children, _⟩ => 1 + depthAll children

def depthAll : List Widget → Nat
  | [] => 0
  | w :: ws => max (depth w) (depthAll ws)

end

mutual

def preorder : Widget → List Widget
  | ⟨kind, id, props, children, pos⟩ => ⟨kind, id, props, children, pos⟩ :: preorderAll children

def preorderAll : List Widget → List Widget
  | [] => []
  | w :: ws => preorder w ++ preorderAll ws

end

mutual

def placed (parent : Option String) : Widget → List (Option String × Widget)
  | ⟨kind, id, props, children, pos⟩ =>
      (parent, ⟨kind, id, props, children, pos⟩) :: placedAll (some id) children

def placedAll (parent : Option String) : List Widget → List (Option String × Widget)
  | [] => []
  | w :: ws => placed parent w ++ placedAll parent ws

end

def containsWindow (w : Widget) : Bool := w.preorder.any (·.kind = .window)

mutual

def level? (id : String) : Widget → Option Nat
  | ⟨_, name, _, children, _⟩ =>
      if name = id then some 1 else (levelAmong? id children).map (· + 1)

def levelAmong? (id : String) : List Widget → Option Nat
  | [] => none
  | w :: ws =>
      match level? id w with
      | some level => some level
      | none => levelAmong? id ws

end

mutual

def find? (id : String) : Widget → Option Widget
  | ⟨kind, name, props, children, pos⟩ =>
      if name = id then some ⟨kind, name, props, children, pos⟩ else findAmong? id children

def findAmong? (id : String) : List Widget → Option Widget
  | [] => none
  | w :: ws =>
      match find? id w with
      | some found => some found
      | none => findAmong? id ws

end

mutual

def edit? (id : String) (f : Widget → Widget) : Widget → Option Widget
  | ⟨kind, name, props, children, pos⟩ =>
      if name = id then some (f ⟨kind, name, props, children, pos⟩)
      else (editAmong? id f children).map fun children => ⟨kind, name, props, children, pos⟩

def editAmong? (id : String) (f : Widget → Widget) : List Widget → Option (List Widget)
  | [] => none
  | w :: ws =>
      match edit? id f w with
      | some w => some (w :: ws)
      | none => (editAmong? id f ws).map (w :: ·)

end

def takeSibling? (id : String) : List Widget → Option (Widget × List Widget)
  | [] => none
  | w :: ws =>
      if w.id = id then some (w, ws)
      else (takeSibling? id ws).map fun (found, ws) => (found, w :: ws)

mutual

/-- Takes out a descendant, a child before a grandchild. -/
def takeBelow? (id : String) : Widget → Option (Widget × Widget)
  | ⟨kind, name, props, children, pos⟩ =>
      match takeSibling? id children with
      | some (found, children) => some (found, ⟨kind, name, props, children, pos⟩)
      | none => (takeBelowAny? id children).map fun (found, children) =>
          (found, ⟨kind, name, props, children, pos⟩)

def takeBelowAny? (id : String) : List Widget → Option (Widget × List Widget)
  | [] => none
  | w :: ws =>
      match takeBelow? id w with
      | some (found, w) => some (found, w :: ws)
      | none => (takeBelowAny? id ws).map fun (found, ws) => (found, w :: ws)

end

mutual

/-- Equality, in which the order of properties does not count and places do. -/
def same : Widget → Widget → Bool
  | ⟨kind, id, props, children, pos⟩, b =>
      kind == b.kind && id == b.id && Properties.same props b.props
        && sameAll children b.children && pos == b.pos

def sameAll : List Widget → List Widget → Bool
  | [], [] => true
  | a :: as, b :: bs => same a b && sameAll as bs
  | _, _ => false

end

mutual

def json : Widget → Json
  | ⟨kind, id, props, children, _⟩ =>
      .object ([("kind", .string kind.name), ("id", .string id), ("props", Properties.json props)]
        ++ if children.isEmpty then [] else [("children", .array (jsonAll children))])

def jsonAll : List Widget → List Json
  | [] => []
  | w :: ws => json w :: jsonAll ws

end

end Widget

structure Forest where
  roots : List Widget

namespace Forest

def empty : Forest := ⟨[]⟩

def preorder (f : Forest) : List Widget := Widget.preorderAll f.roots

def size (f : Forest) : Nat := f.preorder.length

def find? (f : Forest) (id : String) : Option Widget := Widget.findAmong? id f.roots

def contains (f : Forest) (id : String) : Bool := (f.find? id).isSome

def level? (f : Forest) (id : String) : Option Nat := Widget.levelAmong? id f.roots

def parent? (f : Forest) (id : String) : Option String :=
  (f.preorder.filter fun w => w.children.any (·.id = id)).getLast?.map (·.id)

/-- The forest itself if it has no such widget. -/
def edit (f : Forest) (id : String) (g : Widget → Widget) : Forest :=
  match Widget.editAmong? id g f.roots with
  | some roots => ⟨roots⟩
  | none => f

def remove? (f : Forest) (id : String) : Option (Widget × Forest) :=
  match Widget.takeSibling? id f.roots with
  | some (found, roots) => some (found, ⟨roots⟩)
  | none => (Widget.takeBelowAny? id f.roots).map fun (found, roots) => (found, ⟨roots⟩)

/-- The first of a list of widgets whose id an earlier one or one of `seen` has, with that one. -/
def repeated? (seen : List Widget) : List Widget → Option (Widget × Widget)
  | [] => none
  | w :: ws =>
      match seen.find? (·.id == w.id) with
      | some first => some (w, first)
      | none => repeated? (seen ++ [w]) ws

def firstDuplicate? (f : Forest) : Option (Widget × Widget) := repeated? [] f.preorder

def json (f : Forest) : Json := .object [("roots", .array (Widget.jsonAll f.roots))]

end Forest
end WidgetScript
