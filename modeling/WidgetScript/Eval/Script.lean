import WidgetScript.Eval.State
import WidgetScript.Eval.Operators

/-! Running a script, once from top to bottom, gives the declaration and the functions.
A widget call that is a statement is attached where the script stands; anywhere else it is
a value. A function's body is attached where the function is called, so that a function
can serve as a component. The tree is run by recursion on it; calls, which leave the tree,
are counted down from the limit on their depth. -/
namespace WidgetScript
namespace Eval

section
variable (invoke : Closure → List Value → Position → Eval Value)

def literal : Literal → Value
  | .str s => .str s
  | .number x => .number x
  | .bool b => .bool b
  | .nil => .nil

structure WidgetArgs where
  id : Option String
  props : Properties

def WidgetArgs.add (args : WidgetArgs) (kind : Kind) (key : String) (value : Value)
    (pos : Position) : Eval WidgetArgs :=
  if key = "id" then
    match value.str? with
    | some id => if id.isEmpty then fail (.invalidId kind) pos else pure { args with id := some id }
    | none => fail (.invalidId kind) pos
  else
    match Property.coerce key value with
    | .ok (some p) => pure { args with props := Fields.insert key p args.props }
    | .ok none => pure args
    | .error misfit => fail (.malformedProperty key misfit) pos

/-- Builds a widget from what its keyword arguments and its block give. The widget sits one
level below the blocks that are open. -/
def build (kind : Kind) (positional : List Expr) (given : Eval WidgetArgs)
    (children : String → Eval (List Widget)) (pos : Position) : Eval Widget := do
  let s ← get
  if Widget.maxDepth ≤ s.widgetDepth then fail (.tooDeep Widget.maxDepth) pos
  else if !positional.isEmpty then fail (.positionalArgs kind) pos
  else
    let given ← given
    match given.id with
    | none => fail (.missingId kind) pos
    | some id => do
        let ws ← children id
        pure ⟨kind, id, given.props, ws, pos⟩

def inside (block : Eval Value) : Eval (List Widget) := do
  modify EvalState.enterWidget
  discard block
  let s ← get
  set s.leaveWidget
  pure s.attached

/-- Calls a function by name; a definition hides a builtin. -/
def function (name : String) (kwargs : List Entry) (blk : Option Block)
    (args : Eval (List Value)) (pos : Position) : Eval Value := do
  let s ← get
  let found := Fields.get? s.handlers name
  if found.isNone ∧ (Builtin.ofName? name).isNone then fail (.unknownCall name) pos
  else if !kwargs.isEmpty then fail (.keywordArgs name) pos
  else if blk.isSome then fail (.unexpectedBlock name) pos
  else
    let vs ← args
    match found, Builtin.ofName? name with
    | some closure, _ => invoke closure vs pos
    | none, some b => callBuiltin b vs pos
    | none, none => fail (.unknownCall name) pos

/-- A widget in statement position is attached if there is a target for it. -/
def place (w : Widget) : Eval Value := do
  let s ← get
  if s.targets.isEmpty then pure (.node w)
  else
    attach w
    pure .nil

mutual

def expr : Expr → Eval Value
  | .literal value _ => pure (literal value)
  | .interpolated ps _ => do
      let s ← parts ps
      pure (.str s)
  | .ident name _ => do
      let s ← get
      pure ((s.lookup name).getD (.symbol name))
  | .symbol name _ => pure (.symbol name)
  | .list items _ => do
      let vs ← exprs items
      pure (.list vs)
  | .map es _ => do
      let fields ← entries [] es
      pure (.map fields)
  | .call name args kwargs blk pos =>
      match Kind.ofName? name with
      | some kind => do
          let w ← build kind args (widgetArgs kind ⟨none, []⟩ kwargs) (children kind blk) pos
          pure (.node w)
      | none => function invoke name kwargs blk (exprs args) pos
  | .index target key pos => do
      let t ← expr target
      let k ← expr key
      liftType pos (Value.index t k)
  | .field target name pos => do
      let t ← expr target
      liftType pos (Value.field t name)
  | .unary op operand pos => do
      let v ← expr operand
      liftType pos (Value.unary op v)
  | .binary op lhs rhs pos => do
      let l ← expr lhs
      match op with
      | .and => if l.isTruthy then expr rhs else pure l
      | .or => if l.isTruthy then pure l else expr rhs
      | op => do
          let r ← expr rhs
          liftType pos (Value.binary op l r)

def exprs : List Expr → Eval (List Value)
  | [] => pure []
  | e :: es => do
      let v ← expr e
      let vs ← exprs es
      pure (v :: vs)

def parts : List Part → Eval String
  | [] => pure ""
  | .text t :: ps => do
      let rest ← parts ps
      pure (t ++ rest)
  | .hole e :: ps => do
      let v ← expr e
      let rest ← parts ps
      pure (v.text ++ rest)

def entries (fields : Fields Value) : List Entry → Eval (Fields Value)
  | [] => pure fields
  | .mk key e _ :: es => do
      let v ← expr e
      entries (Fields.insert key v fields) es

def widgetArgs (kind : Kind) (given : WidgetArgs) : List Entry → Eval WidgetArgs
  | [] => pure given
  | .mk key e pos :: es => do
      let v ← expr e
      let given ← given.add kind key v pos
      widgetArgs kind given es

def children (kind : Kind) : Option Block → String → Eval (List Widget)
  | none, _ => pure []
  | some (.mk _ body pos), id =>
      if kind.isContainer then inside (stmts .nil body)
      else fail (.leafWithChildren kind id) pos

/-- A call that is a statement attaches the widget it builds, and a bare name that no
variable is bound to calls the function of that name if it takes no arguments. -/
def stmt : Stmt → Eval Value
  | .expr (.call name args kwargs blk pos) =>
      match Kind.ofName? name with
      | some kind => do
          let w ← build kind args (widgetArgs kind ⟨none, []⟩ kwargs) (children kind blk) pos
          place w
      | none => function invoke name kwargs blk (exprs args) pos
  | .expr (.ident name pos) => do
      let s ← get
      match s.lookup name, Fields.get? s.handlers name with
      | some v, _ => pure v
      | none, some closure =>
          if closure.params.isEmpty then invoke closure [] pos else pure (.symbol name)
      | none, none => pure (.symbol name)
  | .expr e => expr e
  | .assign name e _ => do
      let v ← expr e
      modify (·.assign name v)
      pure v
  | .define name params body pos => define name params body pos
  | .cond test yes no _ => do
      let v ← expr test
      modify EvalState.enterBlock
      let result ← if v.isTruthy then stmts .nil yes else stmts .nil no
      modify EvalState.leaveBlock
      pure result

def stmts (last : Value) : List Stmt → Eval Value
  | [] => pure last
  | s :: ss => do
      let v ← stmt s
      stmts v ss

end
end

/-- Calls a function with so many levels of calls left of `limit`. It sees the variables
that it captured and its arguments. -/
def invoke (limit : Nat) : (levels : Nat) → Closure → List Value → Position → Eval Value
  | levels, c, args, pos =>
      if args.length ≠ c.params.length then fail (.arity c.name c.params.length args.length) pos
      else
        match levels with
        | 0 => fail (.recursionLimit c.name limit) pos
        | levels + 1 => do
            modify (·.enterCall (Fields.extend c.captured (c.params.zip args)))
            let v ← stmts (invoke limit levels) .nil c.body
            modify EvalState.leaveCall
            pure v

end Eval

structure Evaluation where
  forest : Forest
  handlers : Handlers

/-- Ids are unique in a declaration, and the earliest repetition is to blame. -/
def Forest.unique (f : Forest) : Except SemanticError Forest :=
  match f.firstDuplicate? with
  | some (w, first) => .error ⟨.duplicateId w.id first.pos, w.pos⟩
  | none => .ok f

/-- Runs a whole script; the log is there also when it fails. -/
def Script.evaluate (script : Script) (maxCallDepth : Nat) :
    Except SemanticError Evaluation × List LogLine :=
  let run := Eval.stmts (Eval.invoke maxCallDepth maxCallDepth) .nil script.body
  match run (.start [] [.roots []]) with
  | (.error e, s) => (.error e, s.log)
  | (.ok _, s) => ((Forest.unique ⟨s.attached⟩).map fun forest => ⟨forest, s.handlers⟩, s.log)

def Handlers.call (handlers : Handlers) (c : Closure) (args : List Value) (maxCallDepth : Nat) :
    Except SemanticError Value × List LogLine :=
  match Eval.invoke maxCallDepth maxCallDepth c args c.pos (.start handlers []) with
  | (r, s) => (r, s.log)

end WidgetScript
