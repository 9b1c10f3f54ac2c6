import WidgetScript.Value

/-! From script values to properties. The key says what is expected; a nil leaves the
property out. -/
namespace WidgetScript

inductive Misfit where
  | notFinite
  | expectedHandler (got : String)
  | expectedColor (got : String)
  | notColor (text : String)
  | expectedPairs
  | expectedPoints (got : String)
  | nilInList
  | widget (id : String)
  | within (key : String) (misfit : Misfit)

def Misfit.message : Misfit → String
  | .notFinite => "numbers must be finite"
  | .expectedHandler got => "expected a handler name, got " ++ got
  | .expectedColor got => "expected a color, got " ++ got
  | .notColor s => "`" ++ s ++ "` is not a color"
  | .expectedPairs => "expected a list of [x, y] pairs"
  | .expectedPoints got => "expected points, got " ++ got
  | .nilInList => "nil is not allowed inside a list"
  | .widget id => "a widget (`" ++ id ++ "`) cannot be a property value"
  | .within key misfit => "in `" ++ key ++ "`: " ++ misfit.message

namespace Property

def isColorKey (key : String) : Bool :=
  key == "color" || key == "bg" || key == "background"
    || "_color".toList.isSuffixOf key.toList || "_bg".toList.isSuffixOf key.toList

def isHandlerKey (key : String) : Bool := "on_".toList.isPrefixOf key.toList

mutual

/-- Whether all numbers in a value are finite; those of a widget are not looked at. -/
def allFinite : Value → Bool
  | .number x => x.isFinite
  | .points ps => ps.all Point.isFinite
  | .list items => allFiniteItems items
  | .map entries => allFiniteEntries entries
  | _ => true

def allFiniteItems : List Value → Bool
  | [] => true
  | v :: vs => allFinite v && allFiniteItems vs

def allFiniteEntries : List (String × Value) → Bool
  | [] => true
  | (_, v) :: vs => allFinite v && allFiniteEntries vs

end

/-- The polyline that a list of pairs of numbers spells; an empty list spells none. -/
def pointsOf? (items : List Value) : Option (List Point) :=
  if items.isEmpty then none else items.mapM Value.point?

/-- The property of `value` under `key`; `plain` is its property under a key that expects
nothing special. -/
def coerceOr (key : String) (value : Value) (plain : Except Misfit Property) :
    Except Misfit (Option Property) :=
  match value with
  | .nil => .ok none
  | value =>
      if !allFinite value then .error .notFinite
      else if isHandlerKey key then
        match value.str? with
        | some name =>
            if name.isEmpty then .error (.expectedHandler value.typeName)
            else .ok (some (.handler name))
        | none => .error (.expectedHandler value.typeName)
      else if isColorKey key then
        match value with
        | .color c => .ok (some (.color c))
        | value =>
            match value.str? with
            | some s =>
                match Color.ofText? s with
                | some c => .ok (some (.color c))
                | none => .error (.notColor s)
            | none => .error (.expectedColor value.typeName)
      else if key == "points" then
        match value with
        | .points ps => .ok (some (.points ps))
        | .list items =>
            match pointsOf? items with
            | some ps => .ok (some (.points ps))
            | none => .error .expectedPairs
        | value => .error (.expectedPoints value.typeName)
      else plain.map some

mutual

def plain : Value → Except Misfit Property
  | .nil => .error .nilInList
  | .bool b => .ok (.bool b)
  | .number x => .ok (.number x)
  | .str s => .ok (.str s)
  | .symbol s => .ok (.str s)
  | .color c => .ok (.color c)
  | .points ps => .ok (.points ps)
  | .list items =>
      match pointsOf? items with
      | some ps => .ok (.points ps)
      | none => (plainItems items).map .list
  | .map entries => (plainEntries entries).map .record
  | .node w => .error (.widget w.id)

def plainItems : List Value → Except Misfit (List Property)
  | [] => .ok []
  | v :: vs => do
      let p ← plain v
      let ps ← plainItems vs
      .ok (p :: ps)

def plainEntries : List (String × Value) → Except Misfit Properties
  | [] => .ok []
  | (key, v) :: vs => do
      let p ← (coerceOr key v (plain v)).mapError (.within key)
      let ps ← plainEntries vs
      match p with
      | some p => .ok ((key, p) :: ps)
      | none => .ok ps

end

def coerce (key : String) (value : Value) : Except Misfit (Option Property) :=
  coerceOr key value (plain value)

end Property
end WidgetScript
