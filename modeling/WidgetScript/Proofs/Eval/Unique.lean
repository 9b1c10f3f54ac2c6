import WidgetScript.Proofs.Eval.Restore
import WidgetScript.Proofs.Forest.Repetition
import WidgetScript.Proofs.Outcome

/-! Whether ids are unique is asked once, of all that a script has attached when it has come to its
end. No step of a run looks for a repeated id or fails because of one, so a declaration that is
rejected for one was complete. -/
namespace WidgetScript

/-- A fault that a single step can have. A repeated id is seen in the whole declaration only. -/
def SemanticFault.OfStep : SemanticFault → Prop
  | .duplicateId _ _ => False
  | _ => True

namespace Builtin

theorem numbers_ofStep (b : Builtin) (args : List Value) :
    FailsBy SemanticFault.OfStep (b.numbers args) := by
  induction args with
  | nil => exact .ok
  | cons v vs ih =>
    rw [numbers]
    split
    · exact ih.map
    · exact .error trivial

theorem color_ofStep (b : Builtin) (expected : Nat) (args : List Value) :
    FailsBy SemanticFault.OfStep (b.color expected args) := by
  unfold color
  split
  · exact .error trivial
  · split
    next e failed => exact .error (b.numbers_ofStep args e failed)
    next =>
      dsimp only
      split
      · exact .ok
      · exact .error trivial

theorem unaryArg_ofStep (b : Builtin) (args : List Value) (f : Value → Except TypeFault Value) :
    FailsBy SemanticFault.OfStep (b.unaryArg args f) := by
  unfold unaryArg
  split
  · exact .mapError fun _ => trivial
  · exact .error trivial

theorem call_ofStep (b : Builtin) (args : List Value) :
    FailsBy SemanticFault.OfStep (b.call args) := by
  cases b with
  | rgb | rgba => exact (color_ofStep _ _ args).map
  | hex | points | str | len => exact (unaryArg_ofStep _ args _).map
  | log | puts => exact .ok

end Builtin

namespace Eval
variable {α β : Type} {pos : Position}

def Blind (m : Eval α) : Prop :=
  ∀ s, FailsBy (fun e => e.fault.OfStep) (m s : Except SemanticError α × EvalState).1

namespace Blind
variable {m : Eval α} {f : α → Eval β}

theorem pure (a : α) : Blind (pure a) := fun _ => .ok

theorem fail {fault : SemanticFault} (step : fault.OfStep) :
    Blind (fail fault pos : Eval α) := fun _ => .error step

theorem bind (first : Blind m) (next : ∀ a, Blind (f a)) : Blind (m >>= f) := by
  intro s
  change FailsBy _ (match (m s : Except SemanticError α × EvalState) with
    | (r, t) => (ExceptT.bindCont f r t : Except SemanticError β × EvalState)).1
  have ran := first s
  generalize (m s : Except SemanticError α × EvalState) = r at ran
  rcases r with ⟨e | a, t⟩
  · exact .error (ran e rfl)
  · exact next a t

theorem get {k : EvalState → Eval β} (next : ∀ s, Blind (k s)) :
    Blind (MonadState.get >>= k) := fun s => next s s

theorem set (t : EvalState) : Blind (MonadStateOf.set t : Eval PUnit) := fun _ => .ok

theorem modify (step : EvalState → EvalState) :
    Blind (MonadState.modifyGet fun s => ((), step s) : Eval Unit) := fun _ => .ok

theorem lift {r : Except SemanticFault α} (step : FailsBy SemanticFault.OfStep r) :
    Blind (Eval.lift pos r) := by
  cases r with
  | ok a => exact .pure a
  | error fault => exact .fail (step fault rfl)

theorem liftType (r : Except TypeFault α) : Blind (Eval.liftType pos r) := by
  cases r with
  | ok a => exact .pure a
  | error fault => exact .fail trivial

end Blind

theorem add_blind (given : WidgetArgs) (kind : Kind) (key : String) (v : Value) :
    Blind (given.add kind key v pos) := by
  unfold WidgetArgs.add
  split
  · split
    · split
      · exact .fail trivial
      · exact .pure _
    · exact .fail trivial
  · split
    · exact .pure _
    · exact .pure _
    · exact .fail trivial

theorem build_blind {kind : Kind} {positional : List Expr} {given : Eval WidgetArgs}
    {children : String → Eval (List Widget)} (args : Blind given)
    (below : ∀ id, Blind (children id)) : Blind (build kind positional given children pos) := by
  unfold build
  refine .get fun s => ?_
  split
  · exact .fail trivial
  · split
    · exact .fail trivial
    · refine args.bind fun given => ?_
      split
      · exact .fail trivial
      next id _ => exact (below id).bind fun ws => .pure _

theorem inside_blind {block : Eval Value} (body : Blind block) : Blind (inside block) := by
  unfold inside
  refine .bind (.modify _) fun _ => ?_
  refine .bind (body.bind fun _ => .pure _) fun _ => .get fun s => ?_
  exact .bind (.set _) fun _ => .pure _

theorem between_blind {enter leave : EvalState → EvalState} {body : Eval α} (h : Blind body) :
    Blind (do
      modify enter
      let result ← body
      modify leave
      pure result) :=
  .bind (.modify _) fun _ => h.bind fun _ => .bind (.modify _) fun _ => .pure _

theorem attach_blind (w : Widget) : Blind (attach w) := by
  unfold attach
  refine .get fun s => ?_
  split
  · exact .pure _
  · split
    · exact .set _
    · exact .fail trivial
  · split
    · exact .fail trivial
    · exact .set _

theorem place_blind (w : Widget) : Blind (place w) := by
  unfold place
  refine .get fun s => ?_
  split
  · exact .pure _
  · exact (attach_blind w).bind fun _ => .pure _

theorem define_blind (name : String) (params : List String) (body : List Stmt) :
    Blind (define name params body pos) := by
  unfold define
  refine .get fun s => ?_
  split
  · exact .fail trivial
  · split
    · exact .fail trivial
    · exact .bind (.set _) fun _ => .pure _

theorem callBuiltin_blind (b : Builtin) (args : List Value) : Blind (callBuiltin b args pos) := by
  unfold callBuiltin
  exact .bind (.lift (b.call_ofStep args)) fun result => .bind (.modify _) fun _ => .pure _

def BlindCalls (call : Closure → List Value → Position → Eval Value) : Prop :=
  ∀ c args pos, Blind (call c args pos)

section

variable {call : Closure → List Value → Position → Eval Value}

theorem function_blind (calls : BlindCalls call) (name : String) (kwargs : List Entry)
    (blk : Option Block) {args : Eval (List Value)} (given : Blind args) :
    Blind (function call name kwargs blk args pos) := by
  unfold function
  refine .get fun s => ?_
  dsimp only
  split
  · exact .fail trivial
  · split
    · exact .fail trivial
    · split
      · exact .fail trivial
      · refine given.bind fun vs => ?_
        split
        next c _ => exact calls c vs pos
        next b _ _ => exact callBuiltin_blind b vs
        next => exact .fail trivial

mutual

theorem expr_blind (calls : BlindCalls call) : (e : Expr) → Blind (expr call e)
  | .literal value _ => by
    rw [expr]
    exact .pure _
  | .interpolated ps _ => by
    rw [expr]
    exact (parts_blind calls ps).bind fun text => .pure _
  | .ident name _ => by
    rw [expr]
    exact .get fun s => .pure _
  | .symbol name _ => by
    rw [expr]
    exact .pure _
  | .list items _ => by
    rw [expr]
    exact (exprs_blind calls items).bind fun vs => .pure _
  | .map es _ => by
    rw [expr]
    exact (entries_blind calls es []).bind fun fields => .pure _
  | .call name args kwargs blk pos => by
    rw [expr]
    split
    next kind _ =>
      exact (build_blind (widgetArgs_blind calls kind kwargs _)
        (children_blind calls kind blk)).bind fun w => .pure _
    next => exact function_blind calls name kwargs blk (exprs_blind calls args)
  | .index target key pos => by
    rw [expr]
    exact (expr_blind calls target).bind fun t => (expr_blind calls key).bind fun k => .liftType _
  | .field target name pos => by
    rw [expr]
    exact (expr_blind calls target).bind fun t => .liftType _
  | .unary op operand pos => by
    rw [expr]
    exact (expr_blind calls operand).bind fun v => .liftType _
  | .binary op lhs rhs pos => by
    rw [expr]
    refine (expr_blind calls lhs).bind fun l => ?_
    split
    · split
      · exact expr_blind calls rhs
      · exact .pure _
    · split
      · exact .pure _
      · exact expr_blind calls rhs
    · exact (expr_blind calls rhs).bind fun r => .liftType _

theorem exprs_blind (calls : BlindCalls call) : (es : List Expr) → Blind (exprs call es)
  | [] => by
    rw [exprs]
    exact .pure _
  | e :: es => by
    rw [exprs]
    exact (expr_blind calls e).bind fun v => (exprs_blind calls es).bind fun vs => .pure _

theorem parts_blind (calls : BlindCalls call) : (ps : List Part) → Blind (parts call ps)
  | [] => by
    rw [parts]
    exact .pure _
  | .text text :: ps => by
    rw [parts]
    exact (parts_blind calls ps).bind fun rest => .pure _
  | .hole e :: ps => by
    rw [parts]
    exact (expr_blind calls e).bind fun v => (parts_blind calls ps).bind fun rest => .pure _

theorem entries_blind (calls : BlindCalls call) :
    (es : List Entry) → ∀ fields : Fields Value, Blind (entries call fields es)
  | [], fields => by
    rw [entries]
    exact .pure _
  | .mk key e _ :: es, fields => by
    rw [entries]
    exact (expr_blind calls e).bind fun v => entries_blind calls es _

theorem widgetArgs_blind (calls : BlindCalls call) (kind : Kind) :
    (es : List Entry) → ∀ given : WidgetArgs, Blind (widgetArgs call kind given es)
  | [], given => by
    rw [widgetArgs]
    exact .pure _
  | .mk key e pos :: es, given => by
    rw [widgetArgs]
    refine (expr_blind calls e).bind fun v => (add_blind given kind key v).bind fun given => ?_
    exact widgetArgs_blind calls kind es given

theorem children_blind (calls : BlindCalls call) (kind : Kind) :
    (blk : Option Block) → ∀ id, Blind (children call kind blk id)
  | none, id => by
    rw [children]
    exact .pure _
  | some (.mk _ body pos), id => by
    rw [children]
    split
    · exact inside_blind (stmts_blind calls body .nil)
    · exact .fail trivial

theorem stmt_blind (calls : BlindCalls call) : (st : Stmt) → Blind (stmt call st)
  | .expr e => by
    cases e with
    | call name args kwargs blk pos =>
      rw [stmt]
      split
      next kind _ =>
        exact (build_blind (widgetArgs_blind calls kind kwargs _)
          (children_blind calls kind blk)).bind fun w => place_blind w
      next => exact function_blind calls name kwargs blk (exprs_blind calls args)
    | ident name pos =>
      rw [stmt]
      refine .get fun s => ?_
      split
      · exact .pure _
      next c _ _ =>
        split
        · exact calls c [] pos
        · exact .pure _
      · exact .pure _
    | literal | interpolated | symbol | list | map | index | field | unary | binary =>
      rw [stmt]
      · exact expr_blind calls _
      all_goals simp
  | .assign name e _ => by
    rw [stmt]
    exact (expr_blind calls e).bind fun v => .bind (.modify _) fun _ => .pure _
  | .define name params body pos => by
    rw [stmt]
    exact define_blind name params body
  | .cond test yes no _ => by
    rw [stmt]
    refine (expr_blind calls test).bind fun v => ?_
    cases v.isTruthy with
    | true => exact between_blind (stmts_blind calls yes .nil)
    | false => exact between_blind (stmts_blind calls no .nil)

theorem stmts_blind (calls : BlindCalls call) :
    (ss : List Stmt) → ∀ last : Value, Blind (stmts call last ss)
  | [], last => by
    rw [stmts]
    exact .pure _
  | st :: ss, last => by
    rw [stmts]
    exact (stmt_blind calls st).bind fun v => stmts_blind calls ss v

end

end

/-- By induction on the levels of calls that are left. -/
theorem invoke_blind (limit levels : Nat) (c : Closure) (args : List Value) (pos : Position) :
    Blind (invoke limit levels c args pos) := by
  induction levels generalizing c args pos with
  | zero =>
    unfold invoke
    split
    · exact .fail trivial
    · exact .fail trivial
  | succ levels ih =>
    unfold invoke
    split
    · exact .fail trivial
    · exact between_blind (stmts_blind ih c.body .nil)

end Eval

theorem Forest.unique_eq_error_iff {f : Forest} {e : SemanticError} :
    f.unique = .error e ↔
      ∃ w first, f.Repetition w first ∧ e = ⟨.duplicateId w.id first.pos, w.pos⟩ := by
  simp only [← firstDuplicate?_eq_some_iff]
  unfold Forest.unique
  cases f.firstDuplicate? with
  | none => simp
  | some pair =>
    obtain ⟨w, first⟩ := pair
    simp only [Except.error.injEq, Option.some.injEq, Prod.mk.injEq]
    constructor
    · rintro rfl
      exact ⟨w, first, ⟨rfl, rfl⟩, rfl⟩
    · rintro ⟨_, _, ⟨rfl, rfl⟩, rfl⟩
      rfl

namespace Script
variable {script : Script} {limit : Nat} {f : Forest}

/-- With this limit on the depth of calls the script comes to its end, and then this is all that is
attached. -/
def Attaches (script : Script) (limit : Nat) (f : Forest) : Prop :=
  ∃ v s, Eval.Yields (Eval.stmts (Eval.invoke limit limit) .nil script.body)
    (.start [] [.roots []]) v s ∧ s.targets = [.roots f.roots]

theorem evaluate_eq_unique (h : script.Attaches limit f) :
    ∃ handlers, (script.evaluate limit).1 = f.unique.map fun forest => ⟨forest, handlers⟩ := by
  obtain ⟨v, s, run, only⟩ := h
  have attached : s.attached = f.roots := by
    rw [EvalState.attached, only]
    rfl
  refine ⟨s.handlers, ?_⟩
  unfold Eval.Yields at run
  unfold evaluate
  dsimp only
  rw [run]
  dsimp only
  rw [attached]

theorem exists_attaches {e : SemanticError} (failed : (script.evaluate limit).1 = .error e)
    (whole : ¬ e.fault.OfStep) : ∃ f, script.Attaches limit f := by
  rcases run : (Eval.stmts (Eval.invoke limit limit) .nil script.body (.start [] [.roots []]) :
    Except SemanticError Value × EvalState) with ⟨reason | v, s⟩
  · unfold evaluate at failed
    dsimp only at failed
    rw [run] at failed
    cases failed
    have blind := Eval.stmts_blind (Eval.invoke_blind limit limit) script.body .nil
    exact absurd (blind _ e (congrArg Prod.fst run)) whole
  -- What a run opens it closes, so the target that is left is that of the roots.
  · have grown : Target.Grown [.roots []] s.targets := (Eval.stmts_restored run).steady.targets
    generalize targets : s.targets = ts at grown
    cases grown with
    | newest more => exact ⟨⟨more⟩, v, s, run, targets⟩

theorem evaluate_eq_duplicateId_iff {id : String} {place pos : Position} :
    (script.evaluate limit).1 = .error ⟨.duplicateId id place, pos⟩ ↔
      ∃ f w first, script.Attaches limit f ∧ f.Repetition w first ∧
        w.id = id ∧ first.pos = place ∧ w.pos = pos := by
  constructor
  · intro failed
    obtain ⟨f, attaches⟩ := exists_attaches failed not_false
    obtain ⟨handlers, checked⟩ := evaluate_eq_unique attaches
    rw [checked, map_eq_error, Forest.unique_eq_error_iff] at failed
    obtain ⟨w, first, repetition, blamed⟩ := failed
    cases blamed
    exact ⟨f, w, first, attaches, repetition, rfl, rfl, rfl⟩
  · rintro ⟨f, w, first, attaches, repetition, rfl, rfl, rfl⟩
    obtain ⟨handlers, checked⟩ := evaluate_eq_unique attaches
    rw [checked, map_eq_error]
    exact Forest.unique_eq_error_iff.2 ⟨w, first, repetition, rfl⟩

/-- The search for a repeated id finds nothing if and only if ids are distinct, and else the first
widget whose id is that of an earlier one, with the one earlier widget that has it. So an evaluation
fails because of an id if and only if the script comes to its end and two of the widgets that it
has attached share one, and the first repetition is to blame. -/
theorem first_repetition_blamed :
    (∀ f : Forest,
      (f.firstDuplicate? = none ↔ f.Distinct) ∧
      (¬ f.Distinct ↔ ∃ w first, f.Repetition w first) ∧
      ∀ w first, f.firstDuplicate? = some (w, first) ↔ f.Repetition w first) ∧
    ∀ (script : Script) (limit : Nat),
      ((∃ id place pos, (script.evaluate limit).1 = .error ⟨.duplicateId id place, pos⟩) ↔
        ∃ f, script.Attaches limit f ∧ ¬ f.Distinct) ∧
      ∀ id place pos, (script.evaluate limit).1 = .error ⟨.duplicateId id place, pos⟩ ↔
        ∃ f w first, script.Attaches limit f ∧ f.Repetition w first ∧
          w.id = id ∧ first.pos = place ∧ w.pos = pos := by
  refine ⟨fun f => ⟨Forest.firstDuplicate?_eq_none_iff, Forest.not_distinct_iff, fun w first =>
    Forest.firstDuplicate?_eq_some_iff⟩, fun script limit => ⟨?_, fun id place pos =>
    evaluate_eq_duplicateId_iff⟩⟩
  constructor
  · rintro ⟨id, place, pos, failed⟩
    obtain ⟨f, w, first, attaches, repetition, -⟩ := evaluate_eq_duplicateId_iff.1 failed
    exact ⟨f, attaches, repetition.not_distinct⟩
  · rintro ⟨f, attaches, shared⟩
    obtain ⟨w, first, repetition⟩ := Forest.not_distinct_iff.1 shared
    exact ⟨w.id, first.pos, w.pos,
      evaluate_eq_duplicateId_iff.2 ⟨f, w, first, attaches, repetition, rfl, rfl, rfl⟩⟩

/-- Two ids are used again in another window. The one that is the second there stands first in the
window before, and yet the other is to blame. -/
theorem first_repetition_blamed_windows :
    let text (id : String) (pos : Position) : Widget := ⟨.text, id, [], [], pos⟩
    let f : Forest :=
      ⟨[⟨.window, "v", [], [text "a" ⟨2, 3⟩, text "b" ⟨3, 3⟩], ⟨1, 1⟩⟩,
        ⟨.window, "w", [], [text "b" ⟨6, 3⟩, text "a" ⟨7, 3⟩, text "b" ⟨8, 3⟩], ⟨5, 1⟩⟩]⟩
    let call (kind id : String) (blk : Option Block) (pos : Position) : Stmt :=
      .expr (.call kind [] [.mk "id" (.literal (.str id) pos) pos] blk pos)
    let script : Script :=
      ⟨[call "window" "v" (some (.mk .braces
          [call "text" "a" none ⟨2, 3⟩, call "text" "b" none ⟨3, 3⟩] ⟨1, 17⟩)) ⟨1, 1⟩,
        call "window" "w" (some (.mk .braces
          [call "text" "b" none ⟨6, 3⟩, call "text" "a" none ⟨7, 3⟩,
            call "text" "b" none ⟨8, 3⟩] ⟨5, 17⟩)) ⟨5, 1⟩]⟩
    script.Attaches 64 f ∧ f.ids = ["v", "a", "b", "w", "b", "a", "b"] ∧
      f.Repetition (text "b" ⟨6, 3⟩) (text "b" ⟨3, 3⟩) ∧
      (script.evaluate 64).1 = .error ⟨.duplicateId "b" ⟨3, 3⟩, ⟨6, 3⟩⟩ := by
  intro text f call script
  obtain ⟨search, evaluated⟩ := first_repetition_blamed
  have attaches : script.Attaches 64 f := ⟨_, _, rfl, rfl⟩
  have repetition : f.Repetition (text "b" ⟨6, 3⟩) (text "b" ⟨3, 3⟩) :=
    ((search f).2.2 _ _).1 rfl
  have failed := ((evaluated script 64).2 "b" ⟨3, 3⟩ ⟨6, 3⟩).2
    ⟨f, _, _, attaches, repetition, rfl, rfl, rfl⟩
  exact ⟨attaches, rfl, repetition, failed⟩

end Script
end WidgetScript
