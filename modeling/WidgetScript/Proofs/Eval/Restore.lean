import WidgetScript.Proofs.Eval.Discipline
import WidgetScript.Proofs.Eval.Steady

/-! What every run that ends well restores, from whatever state it starts. Besides what is opened
being closed again, no function is defined within a block or a call. -/
namespace WidgetScript

namespace EvalState
variable {s t u : EvalState}

def Nested (s : EvalState) : Prop := 0 < s.callDepth ∨ 0 < s.blockDepth

theorem nested_enterBlock (s : EvalState) : s.enterBlock.Nested := .inr (Nat.succ_pos _)

theorem nested_enterWidget (s : EvalState) : s.enterWidget.Nested := .inr (Nat.succ_pos _)

theorem nested_enterCall (s : EvalState) (frame : Fields Value) : (s.enterCall frame).Nested :=
  .inl (Nat.succ_pos _)

/-- All but the newest frame and target is as it was, and so are the functions unless the run
was at the top level. -/
structure Restored (s t : EvalState) : Prop where
  steady : s.Steady t
  handlers : s.Nested → t.handlers = s.handlers

theorem Restored.refl (s : EvalState) : s.Restored s := ⟨.refl s, fun _ => rfl⟩

theorem Restored.trans (first : s.Restored t) (second : t.Restored u) : s.Restored u where
  steady := first.steady.trans second.steady
  handlers nested := by
    have nested' : t.Nested := by rwa [Nested, first.steady.callDepth, first.steady.blockDepth]
    exact (second.handlers nested').trans (first.handlers nested)

theorem handlers_assign (s : EvalState) (name : String) (v : Value) :
    (s.assign name v).handlers = s.handlers := by
  unfold assign
  split <;> rfl

end EvalState

namespace Eval
variable {s t : EvalState}

theorem attach_handlers {w : Widget} {u : Unit} (run : Yields (attach w) s u t) :
    t.handlers = s.handlers := by
  rcases attach_added run with ⟨-, rfl⟩ | ⟨_, _, -, -, rfl⟩ <;> rfl

def restoring : Discipline where
  inv _ := True
  rel := EvalState.Restored
  value _ := True
  props _ := True
  closure _ := True
  widget _ _ := True
  row _ _ := True

theorem restoring_lawful : restoring.Lawful where
  refl := .refl
  trans := .trans
  level h := h.steady.widgetDepth
  literal _ := trivial
  str _ := trivial
  symbol _ := trivial
  list _ _ := trivial
  emptyMap := trivial
  insert _ _ _ _ _ := trivial
  unary _ _ _ _ _ := trivial
  binary _ _ _ _ _ _ _ := trivial
  index _ _ _ _ _ := trivial
  field _ _ _ _ _ := trivial
  builtin _ _ _ _ _ := trivial
  noProps := trivial
  addProp _ _ _ _ _ _ _ _ := trivial
  lookup _ _ _ _ _ := trivial
  function _ _ _ _ _ := trivial
  log s lines _ := ⟨trivial, s.steady_log lines, fun _ => rfl⟩
  assign s name v _ _ := ⟨trivial, s.steady_assign name v, fun _ => s.handlers_assign name v⟩
  define s _ _ _ _ _ calls blocks _ := by
    refine ⟨trivial, s.steady_define _, fun nested => ?_⟩
    rw [EvalState.Nested, calls, blocks] at nested
    exact absurd nested (by decide)
  enterBlock _ _ := trivial
  leaveBlock s _ _ h _ := ⟨trivial, h.steady.leaveBlock, fun _ => h.handlers s.nested_enterBlock⟩
  enterCall _ _ _ _ _ _ := trivial
  leaveCall s frame _ _ h _ :=
    ⟨trivial, h.steady.leaveCall, fun _ => h.handlers (s.nested_enterCall frame)⟩
  enterWidget _ _ _ := trivial
  leaveWidget s _ _ h _ :=
    ⟨trivial, ⟨h.steady.leaveWidget, fun _ => h.handlers s.nested_enterWidget⟩, trivial⟩
  noRow _ := trivial
  build _ _ _ _ _ _ _ _ _ _ _ _ := ⟨trivial, trivial⟩
  attach _ _ _ _ _ _ run := ⟨trivial, attach_steady run, fun _ => attach_handlers run⟩

theorem invoke_restored {limit levels : Nat} {c : Closure} {args : List Value} {pos : Position}
    {v : Value} (run : Yields (invoke limit levels c args pos) s v t) : s.Restored t :=
  (Discipline.invoke_keeps restoring_lawful limit levels s c args pos trivial
    (fun _ _ => trivial) trivial v t run).2.1

theorem stmts_restored {limit levels : Nat} {last v : Value} {ss : List Stmt}
    (run : Yields (stmts (invoke limit levels) last ss) s v t) : s.Restored t :=
  (Discipline.stmts_keeps restoring_lawful
    (Discipline.invoke_keeps restoring_lawful limit levels) ss last trivial s trivial v t run).2.1

end Eval
end WidgetScript
