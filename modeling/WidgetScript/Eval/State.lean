import WidgetScript.Eval.Fault
import WidgetScript.Eval.Closure
import WidgetScript.Eval.Builtin

/-! What a running script reads and changes. Variables live in frames, one for each
active call, and widgets are attached to targets, one for each open widget block; only
the newest frame and the newest target are in reach. -/
namespace WidgetScript

/-- Where attached widgets go: among the roots or below a widget. -/
inductive Target where
  | roots (widgets : List Widget)
  | children (widgets : List Widget)

def Target.widgets : Target → List Widget
  | .roots ws => ws
  | .children ws => ws

/-- The newest frame and target come first. Without a target the script runs outside any
declaration, and a widget is a value like another. -/
structure EvalState where
  handlers : Handlers
  frames : List (Fields Value)
  targets : List Target
  blockDepth : Nat
  widgetDepth : Nat
  callDepth : Nat
  log : List LogLine

/-- The log outlives a failure. -/
abbrev Eval := ExceptT SemanticError (StateM EvalState)

namespace EvalState

def start (handlers : Handlers) (targets : List Target) : EvalState :=
  ⟨handlers, [[]], targets, 0, 0, 0, []⟩

def frame (s : EvalState) : Fields Value := s.frames.headD []

def lookup (s : EvalState) (name : String) : Option Value := Fields.get? s.frame name

def assign (s : EvalState) (name : String) (value : Value) : EvalState :=
  match s.frames with
  | [] => s
  | frame :: frames => { s with frames := Fields.insert name value frame :: frames }

def define (s : EvalState) (c : Closure) : EvalState :=
  let (handlers, warnings) := s.handlers.define c
  { s with handlers, log := s.log ++ warnings }

def enterBlock (s : EvalState) : EvalState := { s with blockDepth := s.blockDepth + 1 }

def leaveBlock (s : EvalState) : EvalState := { s with blockDepth := s.blockDepth - 1 }

def enterWidget (s : EvalState) : EvalState :=
  { s.enterBlock with targets := .children [] :: s.targets, widgetDepth := s.widgetDepth + 1 }

def leaveWidget (s : EvalState) : EvalState :=
  { s.leaveBlock with targets := s.targets.tail, widgetDepth := s.widgetDepth - 1 }

def enterCall (s : EvalState) (frame : Fields Value) : EvalState :=
  { s with frames := frame :: s.frames, callDepth := s.callDepth + 1 }

def leaveCall (s : EvalState) : EvalState :=
  { s with frames := s.frames.tail, callDepth := s.callDepth - 1 }

def attached (s : EvalState) : List Widget := (s.targets.head?.map Target.widgets).getD []

end EvalState

namespace Eval

def fail {α : Type} (fault : SemanticFault) (pos : Position) : Eval α := throw ⟨fault, pos⟩

def lift {α : Type} (pos : Position) : Except SemanticFault α → Eval α
  | .ok x => pure x
  | .error fault => fail fault pos

def liftType {α : Type} (pos : Position) : Except TypeFault α → Eval α
  | .ok x => pure x
  | .error fault => fail (.type fault) pos

/-- At the top level only windows can be attached, and below it none. -/
def attach (w : Widget) : Eval Unit := do
  let s ← get
  match s.targets with
  | [] => pure ()
  | .roots ws :: targets =>
      if w.kind = .window then set { s with targets := .roots (ws ++ [w]) :: targets }
      else fail (.notAWindow w.kind w.id) w.pos
  | .children ws :: targets =>
      if w.kind = .window then fail (.misplacedWindow w.id) w.pos
      else set { s with targets := .children (ws ++ [w]) :: targets }

def define (name : String) (params : List String) (body : List Stmt) (pos : Position) :
    Eval Value := do
  let s ← get
  if 0 < s.callDepth ∨ 0 < s.blockDepth then fail (.nestedDef name) pos
  else if (Kind.ofName? name).isSome then fail (.type (.widgetKindRedefined name)) pos
  else
    set (s.define ⟨name, params, body, s.frame, pos⟩)
    pure .nil

def callBuiltin (b : Builtin) (args : List Value) (pos : Position) : Eval Value := do
  let (value, lines) ← lift pos (b.call args)
  modify fun s => { s with log := s.log ++ lines }
  pure value

end Eval
end WidgetScript
