import WidgetScript.Widget

/-! The values of a script. -/
namespace WidgetScript

/-- A symbol is a written `:name` or a bare name that no variable is bound to. -/
inductive Value where
  | nil
  | bool (value : Bool)
  | number (value : Float)
  | str (text : String)
  | symbol (name : String)
  | color (value : Color)
  | points (points : List Point)
  | list (items : List Value)
  | map (entries : List (String × Value))
  | node (widget : Widget)

namespace Value

instance : Inhabited Value := ⟨.nil⟩

def typeName : Value → String
  | .nil => "nil"
  | .bool _ => "bool"
  | .number _ => "number"
  | .str _ => "string"
  | .symbol _ => "symbol"
  | .color _ => "color"
  | .points _ => "points"
  | .list _ => "list"
  | .map _ => "map"
  | .node _ => "node"

def isTruthy : Value → Bool
  | .nil => false
  | .bool b => b
  | _ => true

def str? : Value → Option String
  | .str s => some s
  | .symbol s => some s
  | _ => none

def number? : Value → Option Float
  | .number x => some x
  | _ => none

def point? : Value → Option Point
  | .list [.number x, .number y] => some ⟨x, y⟩
  | _ => none

mutual

def same : Value → Value → Bool
  | .nil, .nil => true
  | .bool a, .bool b => a == b
  | .number a, .number b => a == b
  | .str a, .str b => a == b
  | .symbol a, .symbol b => a == b
  | .color a, .color b => a == b
  | .points a, .points b => sameItems Point.same a b
  | .list a, .list b => sameList a b
  | .map a, .map b => a.length == b.length && sameEntries a b
  | .node a, .node b => a.same b
  | _, _ => false

def sameList : List Value → List Value → Bool
  | [], [] => true
  | a :: as, b :: bs => same a b && sameList as bs
  | _, _ => false

def sameEntries : List (String × Value) → List (String × Value) → Bool
  | [], _ => true
  | (key, a) :: as, bs =>
      (match Fields.get? bs key with
        | some b => same a b
        | none => false) && sameEntries as bs

end

def looseEq (a b : Value) : Bool :=
  match a.str?, b.str? with
  | some s, some t => s == t
  | _, _ => same a b

def bracketed (opening closing : String) (items : List String) : String :=
  opening ++ String.intercalate ", " items ++ closing

mutual

def text : Value → String
  | .nil => ""
  | .bool b => if b then "true" else "false"
  | .number x => Number.scriptText x
  | .str s => s
  | .symbol s => s
  | .color c => c.text
  | .points ps => bracketed "[" "]" (ps.map fun p =>
      bracketed "[" "]" [Number.scriptText p.x, Number.scriptText p.y])
  | .list items => bracketed "[" "]" (texts items)
  | .map entries => bracketed "\x7b" "\x7d" (entryTexts entries)
  | .node w => "<" ++ w.kind.name ++ " #" ++ w.id ++ ">"

def texts : List Value → List String
  | [] => []
  | v :: vs => text v :: texts vs

def entryTexts : List (String × Value) → List String
  | [] => []
  | (key, v) :: vs => (key ++ ": " ++ text v) :: entryTexts vs

end

mutual

def ofJson : Json → Value
  | .null => .nil
  | .bool b => .bool b
  | .number x => .number x
  | .string s => .str s
  | .array items => .list (ofItems items)
  | .object fields => .map (Fields.ofList (ofFields fields))

def ofItems : List Json → List Value
  | [] => []
  | item :: items => ofJson item :: ofItems items

def ofFields : List (String × Json) → List (String × Value)
  | [] => []
  | (key, value) :: fields => (key, ofJson value) :: ofFields fields

end

mutual

def ofProperty : Property → Value
  | .str s => .str s
  | .number x => .number x
  | .bool b => .bool b
  | .color c => .color c
  | .points ps => .points ps
  | .handler name => .symbol name
  | .list items => .list (ofPropertyList items)
  | .record fields => .map (ofProperties fields)

def ofPropertyList : List Property → List Value
  | [] => []
  | item :: items => ofProperty item :: ofPropertyList items

def ofProperties : List (String × Property) → List (String × Value)
  | [] => []
  | (key, value) :: fields => (key, ofProperty value) :: ofProperties fields

end

end Value
end WidgetScript
