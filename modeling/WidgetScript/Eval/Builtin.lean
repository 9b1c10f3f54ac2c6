import WidgetScript.Eval.Fault
import WidgetScript.Text.Diagnostic

/-! The functions that every script can call. A definition of the same name hides one. -/
namespace WidgetScript

inductive Builtin where
  | rgb | rgba | hex | points | str | len | log | puts
deriving DecidableEq, Repr

namespace Builtin

def all : List Builtin := [.rgb, .rgba, .hex, .points, .str, .len, .log, .puts]

def name : Builtin → String
  | .rgb => "rgb"
  | .rgba => "rgba"
  | .hex => "hex"
  | .points => "points"
  | .str => "str"
  | .len => "len"
  | .log => "log"
  | .puts => "puts"

def ofName? (name : String) : Option Builtin := all.find? (·.name == name)

def numbers (b : Builtin) : List Value → Except SemanticFault (List Float)
  | [] => .ok []
  | v :: vs =>
      match v.number? with
      | some x => (numbers b vs).map (x :: ·)
      | none => .error (.type (.expects b.name "numbers" v.typeName))

/-- A colour of three or four channels; a missing alpha is opaque. -/
def color (b : Builtin) (expected : Nat) (args : List Value) : Except SemanticFault Value :=
  if args.length ≠ expected then .error (.arity b.name expected args.length)
  else
    match numbers b args with
    | .error e => .error e
    | .ok channels =>
        let made := match channels with
          | [red, green, blue] => Color.ofChannels? red green blue 1.0
          | [red, green, blue, alpha] => Color.ofChannels? red green blue alpha
          | _ => none
        match made with
        | some c => .ok (.color c)
        | none => .error (.type (.channelsOutOfRange b.name))

def unaryArg (b : Builtin) (args : List Value) (f : Value → Except TypeFault Value) :
    Except SemanticFault Value :=
  match args with
  | [v] => (f v).mapError .type
  | args => .error (.arity b.name 1 args.length)

def ofHex (v : Value) : Except TypeFault Value :=
  match v.str? with
  | some s =>
      match Color.ofText? s with
      | some c => .ok (.color c)
      | none => .error (.notColor s)
  | none => .error (.expects "hex" "a string" v.typeName)

/-- Unlike a stored polyline, one that is built here may be empty. -/
def ofPairs (v : Value) : Except TypeFault Value :=
  match v with
  | .points ps => .ok (.points ps)
  | .list items =>
      match items.mapM Value.point? with
      | some ps => .ok (.points ps)
      | none => .error .expectsPairs
  | v => .error (.expects "points" "a list" v.typeName)

def count (v : Value) : Except TypeFault Value :=
  let size (n : Nat) : Except TypeFault Value := .ok (.number n.toFloat)
  match v with
  | .str s => size s.length
  | .symbol s => size s.length
  | .list items => size items.length
  | .map entries => size entries.length
  | .points ps => size ps.length
  | .node w => size w.children.length
  | v => .error (.expects "len" "a string, list, or map" v.typeName)

def call (b : Builtin) (args : List Value) : Except SemanticFault (Value × List LogLine) :=
  let silent (r : Except SemanticFault Value) := r.map fun v => (v, [])
  match b with
  | .rgb => silent (color .rgb 3 args)
  | .rgba => silent (color .rgba 4 args)
  | .hex => silent (unaryArg .hex args ofHex)
  | .points => silent (unaryArg .points args ofPairs)
  | .str => silent (unaryArg .str args fun v => .ok (.str v.text))
  | .len => silent (unaryArg .len args count)
  | .log | .puts => .ok (.nil, [⟨.info, String.intercalate " " (args.map Value.text)⟩])

end Builtin
end WidgetScript
