import WidgetScript.Color
import WidgetScript.Fields
import WidgetScript.Json.Basic

/-! What a widget stores under a key. The shapes are closed, and the key decides part of
the shape: some keys hold handlers, some colours and one a polyline. -/
namespace WidgetScript

structure Point where
  x : Float
  y : Float
deriving DecidableEq, Repr

inductive Property where
  | str (text : String)
  | number (value : Float)
  | bool (value : Bool)
  | color (value : Color)
  | points (points : List Point)
  | handler (name : String)
  | list (items : List Property)
  | record (fields : List (String × Property))

instance : Inhabited Property := ⟨.bool false⟩

abbrev Properties := Fields Property

/-- Points are equal as numbers are: zero equals its negative and NaN equals nothing. -/
def Point.same (p q : Point) : Bool := p.x == q.x && p.y == q.y

def Point.isFinite (p : Point) : Bool := p.x.isFinite && p.y.isFinite

def sameItems {α : Type} (same : α → α → Bool) : List α → List α → Bool
  | [], [] => true
  | a :: as, b :: bs => same a b && sameItems same as bs
  | _, _ => false

namespace Property

mutual

/-- Equality, in which the order of a record's fields does not count. -/
def same : Property → Property → Bool
  | .str a, .str b => a == b
  | .number a, .number b => a == b
  | .bool a, .bool b => a == b
  | .color a, .color b => a == b
  | .points a, .points b => sameItems Point.same a b
  | .handler a, .handler b => a == b
  | .list a, .list b => sameList a b
  | .record a, .record b => a.length == b.length && sameFields a b
  | _, _ => false

def sameList : List Property → List Property → Bool
  | [], [] => true
  | a :: as, b :: bs => same a b && sameList as bs
  | _, _ => false

def sameFields : List (String × Property) → List (String × Property) → Bool
  | [], _ => true
  | (key, a) :: as, bs =>
      (match Fields.get? bs key with
        | some b => same a b
        | none => false) && sameFields as bs

end

instance : BEq Property := ⟨same⟩

def str? : Property → Option String
  | .str s => some s
  | _ => none

mutual

/-- The wire form; a handler stays distinct from a string. -/
def json : Property → Json
  | .str s => .string s
  | .number x => .number x
  | .bool b => .bool b
  | .color c => .string c.text
  | .points ps => .array (ps.map fun p => .array [.number p.x, .number p.y])
  | .handler name => .object [("handler", .string name)]
  | .list items => .array (jsonItems items)
  | .record fields => .object (jsonFields fields)

def jsonItems : List Property → List Json
  | [] => []
  | item :: items => json item :: jsonItems items

def jsonFields : List (String × Property) → List (String × Json)
  | [] => []
  | (key, value) :: fields => (key, json value) :: jsonFields fields

end

end Property

namespace Properties

def same (a b : Properties) : Bool := a.length == b.length && Property.sameFields a b

/-- The fields of `new` that `old` lacks or holds with another value. A key that only
`old` has is no difference: a property that is left out keeps its value. -/
def diff (old new : Properties) : Properties :=
  List.filter (fun field => match Fields.get? old field.1 with
    | some value => !Property.same value field.2
    | none => true) new

def json (fields : Properties) : Json := .object (Property.jsonFields fields)

end Properties
end WidgetScript
