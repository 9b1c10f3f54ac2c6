import WidgetScript.Eval.Fault

/-! Operators, indexing and field access on values. -/
namespace WidgetScript.Value

def compareNumbers (op : BinaryOp) (a b : Float) : Bool :=
  match op with
  | .lt => a < b
  | .le => a ≤ b
  | .gt => b < a
  | .ge => b ≤ a
  | _ => false

def compareTexts (op : BinaryOp) (a b : String) : Bool :=
  match op with
  | .lt => a < b
  | .le => !(b < a)
  | .gt => b < a
  | .ge => !(a < b)
  | _ => false

/-- `and` and `or` are not here: they may leave their right operand unevaluated. -/
def binary (op : BinaryOp) (l r : Value) : Except TypeFault Value :=
  let unfit := .error (.cannotApply op l.typeName r.typeName)
  match op with
  | .eq => .ok (.bool (looseEq l r))
  | .notEq => .ok (.bool (!looseEq l r))
  | .add =>
      match l, r with
      | .number a, .number b => .ok (.number (a + b))
      | .list a, .list b => .ok (.list (a ++ b))
      | .str a, r => .ok (.str (a ++ r.text))
      | _, _ => unfit
  | .sub =>
      match l, r with
      | .number a, .number b => .ok (.number (a - b))
      | _, _ => unfit
  | .mul =>
      match l, r with
      | .number a, .number b => .ok (.number (a * b))
      | _, _ => unfit
  | .div =>
      match l, r with
      | .number a, .number b =>
          if b == 0.0 then .error .divisionByZero else .ok (.number (a / b))
      | _, _ => unfit
  | .lt | .le | .gt | .ge =>
      match l, r with
      | .number a, .number b => .ok (.bool (compareNumbers op a b))
      | l, r =>
          match l.str?, r.str? with
          | some a, some b => .ok (.bool (compareTexts op a b))
          | _, _ => unfit
  | .and | .or => unfit

def unary (op : UnaryOp) (v : Value) : Except TypeFault Value :=
  match op, v with
  | .not, v => .ok (.bool (!v.isTruthy))
  | .neg, .number x => .ok (.number (-x))
  | .neg, v => .error (.cannotNegate v.typeName)

/-- The item at a whole number, which counts from the end when it is negative; nil at a
fraction and outside the list. -/
def item (items : List Value) (n : Float) : Value :=
  if Number.isIntegral n then
    let i := Number.truncate n
    let i := if n < 0.0 then items.length + i else i
    if 0 ≤ i then (items[i.toNat]?).getD .nil else .nil
  else .nil

def ofWidgetField (w : Widget) (name : String) : Value :=
  match name with
  | "id" => .str w.id
  | "kind" => .str w.kind.name
  | "children" => .list (w.children.map .node)
  | name => ((Fields.get? w.props name).map ofProperty).getD .nil

def index (target key : Value) : Except TypeFault Value :=
  let unfit := .error (.cannotIndex target.typeName key.typeName)
  match target, key with
  | .list items, .number n => .ok (item items n)
  | .points ps, .number n => .ok (item (ps.map fun p => .list [.number p.x, .number p.y]) n)
  | .str s, .number n => .ok (item (s.toList.map fun c => .str c.toString) n)
  | .map entries, key =>
      match key.str? with
      | some k => .ok ((Fields.get? entries k).getD .nil)
      | none => unfit
  | .node w, key =>
      match key.str? with
      | some k => .ok (ofWidgetField w k)
      | none => unfit
  | _, _ => unfit

def field (target : Value) (name : String) : Except TypeFault Value :=
  let channel (n : UInt8) : Except TypeFault Value := .ok (.number n.toNat.toFloat)
  match target with
  | .map entries => .ok ((Fields.get? entries name).getD .nil)
  | .node w => .ok (ofWidgetField w name)
  | .color c =>
      match name with
      | "r" => channel c.red
      | "g" => channel c.green
      | "b" => channel c.blue
      | "a" => channel c.alpha
      | name => .error (.noField "color" name)
  | v => .error (.noField v.typeName name)

end WidgetScript.Value
