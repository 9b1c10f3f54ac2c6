import WidgetScript.Eval.Script
import WidgetScript.Proofs.Ast.Relocate
import WidgetScript.Proofs.Value.Relocate

/-! A script whose nodes stand elsewhere runs as it did. Its widgets and functions have the new
places, and if it fails it does so for the same reason at the new place. Only the log may be
another, for some of its lines name places. -/
namespace WidgetScript

def Closure.relocate (f : Position → Position) (c : Closure) : Closure where
  name := c.name
  params := c.params
  body := Stmt.relocateAll f c.body
  captured := Fields.mapValues (Value.relocate f) c.captured
  pos := f c.pos

@[simp] theorem Closure.relocate_name (f : Position → Position) (c : Closure) :
    (c.relocate f).name = c.name := rfl

@[simp] theorem Closure.relocate_params (f : Position → Position) (c : Closure) :
    (c.relocate f).params = c.params := rfl

def Target.relocate (f : Position → Position) : Target → Target
  | .roots ws => .roots (ws.map (Widget.relocate f))
  | .children ws => .children (ws.map (Widget.relocate f))

def EvalState.relocate (f : Position → Position) (log : List LogLine) (s : EvalState) :
    EvalState where
  handlers := Fields.mapValues (Closure.relocate f) s.handlers
  frames := s.frames.map (Fields.mapValues (Value.relocate f))
  targets := s.targets.map (Target.relocate f)
  blockDepth := s.blockDepth
  widgetDepth := s.widgetDepth
  callDepth := s.callDepth
  log := log

namespace EvalState
variable {f : Position → Position} {log : List LogLine} (s : EvalState)

theorem frame_relocate :
    (s.relocate f log).frame = Fields.mapValues (Value.relocate f) s.frame := by
  simp only [frame, relocate]
  cases s.frames <;> rfl

theorem lookup_relocate (name : String) :
    (s.relocate f log).lookup name = (s.lookup name).map (Value.relocate f) := by
  rw [lookup, frame_relocate, Fields.get?_mapValues, lookup]

theorem define_relocate (c : Closure) :
    ∃ log', (s.relocate f log).define (c.relocate f) = (s.define c).relocate f log' := by
  have handlers := Fields.insert_mapValues (g := Closure.relocate f) c.name c s.handlers
  have name : (c.relocate f).name = c.name := rfl
  exact ⟨((s.relocate f log).define (c.relocate f)).log, by
    simp only [define, Handlers.define, relocate, name, handlers]⟩

theorem assign_relocate (name : String) (v : Value) :
    (s.relocate f log).assign name (v.relocate f) = (s.assign name v).relocate f log := by
  obtain ⟨handlers, frames, targets, blocks, widgets, calls, lines⟩ := s
  cases frames with
  | nil => rfl
  | cons frame frames => simp [assign, relocate]

theorem attached_relocate :
    (s.relocate f log).attached = s.attached.map (Widget.relocate f) := by
  simp only [attached, relocate]
  cases s.targets with
  | nil => rfl
  | cons target targets => cases target <;> rfl

theorem enterWidget_relocate :
    (s.relocate f log).enterWidget = s.enterWidget.relocate f log := rfl

theorem leaveWidget_relocate :
    (s.relocate f log).leaveWidget = s.leaveWidget.relocate f log := by
  simp [leaveWidget, leaveBlock, relocate]

theorem leaveCall_relocate : (s.relocate f log).leaveCall = s.leaveCall.relocate f log := by
  simp [leaveCall, relocate]

theorem enterCall_relocate (frame : Fields Value) :
    (s.relocate f log).enterCall (Fields.mapValues (Value.relocate f) frame) =
      (s.enterCall frame).relocate f log := rfl

end EvalState

namespace Eval
variable {α β γ δ : Type} {f : Position → Position} {pos : Position}

/-- The second outcome is the first one at the new places; `g` says what they make of a result. -/
inductive Echoes (f : Position → Position) (g : α → γ) :
    Except SemanticError α × EvalState → Except SemanticError γ × EvalState → Prop where
  | ok (a : α) (s : EvalState) (log : List LogLine) :
      Echoes f g (.ok a, s) (.ok (g a), s.relocate f log)
  | error (e : SemanticError) (s s' : EvalState) :
      Echoes f g (.error e, s) (.error ⟨e.fault, f e.pos⟩, s')

def Relocates (f : Position → Position) (g : α → γ) (m : Eval α) (m' : Eval γ) : Prop :=
  ∀ s log, Echoes f g (m s) (m' (s.relocate f log))

namespace Relocates
variable {g : α → γ} {h : β → δ} {m : Eval α} {m' : Eval γ}

theorem pure {a : α} {c : γ} (eq : c = g a) : Relocates f g (pure a) (pure c) := by
  intro s log
  subst eq
  exact .ok a s log

theorem fail {fault : SemanticFault} :
    Relocates f g (fail fault pos : Eval α) (Eval.fail fault (f pos)) := by
  intro s log
  exact .error ⟨fault, pos⟩ s _

theorem bind {k : α → Eval β} {k' : γ → Eval δ} (first : Relocates f g m m')
    (next : ∀ a, Relocates f h (k a) (k' (g a))) : Relocates f h (m >>= k) (m' >>= k') := by
  intro s log
  change Echoes f h
    (match (m s : Except SemanticError α × EvalState) with
      | (r, t) => (ExceptT.bindCont k r t : Except SemanticError β × EvalState))
    (match (m' (s.relocate f log) : Except SemanticError γ × EvalState) with
      | (r, t) => (ExceptT.bindCont k' r t : Except SemanticError δ × EvalState))
  have run := first s log
  generalize (m s : Except SemanticError α × EvalState) = r at run
  generalize (m' (s.relocate f log) : Except SemanticError γ × EvalState) = r' at run
  cases run with
  | ok a t log' => exact next a t log'
  -- After a failure nothing reads the states any more, so they need not agree.
  | error e t t' => exact .error e t t'

theorem get {k : EvalState → Eval β} {k' : EvalState → Eval δ}
    (next : ∀ s log, Relocates f h (k s) (k' (s.relocate f log))) :
    Relocates f h (MonadState.get >>= k) (MonadState.get >>= k') :=
  fun s log => next s log s log

theorem set {s s' : EvalState} (log : List LogLine) (eq : s' = s.relocate f log) :
    Relocates f id (MonadStateOf.set s : Eval PUnit) (MonadStateOf.set s') := by
  intro _ _
  subst eq
  exact .ok _ s log

theorem modify {step step' : EvalState → EvalState}
    (h : ∀ s log, ∃ log', step' (s.relocate f log) = (step s).relocate f log') :
    Relocates f id (MonadState.modifyGet fun s => ((), step s) : Eval Unit)
      (MonadState.modifyGet fun s => ((), step' s)) := by
  intro s log
  obtain ⟨log', eq⟩ := h s log
  change Echoes f id (.ok (), step s) (.ok (), step' (s.relocate f log))
  rw [eq]
  exact .ok () (step s) log'

theorem lift {r : Except SemanticFault α} {r' : Except SemanticFault γ} (eq : r' = r.map g) :
    Relocates f g (Eval.lift pos r) (Eval.lift (f pos) r') := by
  subst eq
  cases r with
  | ok a => exact .pure rfl
  | error fault => exact .fail

theorem liftType {r : Except TypeFault α} {r' : Except TypeFault γ} (eq : r' = r.map g) :
    Relocates f g (Eval.liftType pos r) (Eval.liftType (f pos) r') := by
  subst eq
  cases r with
  | ok a => exact .pure rfl
  | error fault => exact .fail

end Relocates

theorem literal_relocate (l : Literal) : (literal l).relocate f = literal l := by
  cases l <;> rfl

theorem add_relocates (given : WidgetArgs) (kind : Kind) (key : String) (v : Value) :
    Relocates f id (given.add kind key v pos) (given.add kind key (v.relocate f) (f pos)) := by
  unfold WidgetArgs.add
  rw [Value.str?_relocate, Property.coerce_relocate]
  split
  · split
    · split
      · exact .fail
      · exact .pure rfl
    · exact .fail
  · split
    · exact .pure rfl
    · exact .pure rfl
    · exact .fail

theorem build_relocates {kind : Kind} {positional positional' : List Expr}
    {given given' : Eval WidgetArgs} {children children' : String → Eval (List Widget)}
    (none : positional'.isEmpty = positional.isEmpty) (args : Relocates f id given given')
    (below : ∀ id, Relocates f (List.map (Widget.relocate f)) (children id) (children' id)) :
    Relocates f (Widget.relocate f) (build kind positional given children pos)
      (build kind positional' given' children' (f pos)) := by
  unfold build
  refine .get fun s log => ?_
  dsimp only [EvalState.relocate]
  rw [none]
  split
  · exact .fail
  · split
    · exact .fail
    · refine args.bind fun given => ?_
      dsimp only [id]
      split
      · exact .fail
      next id _ =>
        refine (below id).bind fun ws => .pure ?_
        rw [Widget.relocate, Widget.relocateAll_eq_map]

theorem inside_relocates {block block' : Eval Value}
    (body : Relocates f (Value.relocate f) block block') :
    Relocates f (List.map (Widget.relocate f)) (inside block) (inside block') := by
  unfold inside
  refine .bind (.modify fun s log => ⟨log, s.enterWidget_relocate⟩) fun _ => ?_
  refine .bind (g := id) (body.bind fun _ => .pure rfl) fun _ => .get fun s log => ?_
  exact .bind (.set log s.leaveWidget_relocate) fun _ => .pure s.attached_relocate

theorem block_relocates {body body' : Eval Value}
    (h : Relocates f (Value.relocate f) body body') :
    Relocates f (Value.relocate f)
      (do
        modify EvalState.enterBlock
        let result ← body
        modify EvalState.leaveBlock
        pure result)
      (do
        modify EvalState.enterBlock
        let result ← body'
        modify EvalState.leaveBlock
        pure result) := by
  refine .bind (.modify fun s log => ⟨log, rfl⟩) fun _ => h.bind fun result => ?_
  exact .bind (.modify fun s log => ⟨log, rfl⟩) fun _ => .pure rfl

theorem attach_relocates (w : Widget) :
    Relocates f id (attach w) (attach (w.relocate f)) := by
  unfold attach
  refine .get fun s log => ?_
  obtain ⟨handlers, frames, targets, blocks, widgets, calls, lines⟩ := s
  rw [Widget.relocate_kind, Widget.relocate_id, Widget.relocate_pos]
  cases targets with
  | nil => exact .pure rfl
  | cons target targets =>
    cases target with
    | roots ws =>
      dsimp only [EvalState.relocate, List.map_cons, Target.relocate]
      split
      · exact .set log (by simp [EvalState.relocate, Target.relocate])
      · exact .fail
    | children ws =>
      dsimp only [EvalState.relocate, List.map_cons, Target.relocate]
      split
      · exact .fail
      · exact .set log (by simp [EvalState.relocate, Target.relocate])

theorem place_relocates (w : Widget) :
    Relocates f (Value.relocate f) (place w) (place (w.relocate f)) := by
  unfold place
  refine .get fun s log => ?_
  dsimp only [EvalState.relocate]
  rw [List.isEmpty_map]
  split
  · exact .pure (by rw [Value.relocate])
  · exact (attach_relocates w).bind fun _ => .pure rfl

theorem define_relocates (name : String) (params : List String) (body : List Stmt) :
    Relocates f (Value.relocate f) (define name params body pos)
      (define name params (Stmt.relocateAll f body) (f pos)) := by
  unfold define
  refine .get fun s log => ?_
  dsimp only [EvalState.relocate]
  split
  · exact .fail
  · split
    · exact .fail
    · have frame : (s.relocate f log).frame = _ := s.frame_relocate
      have defined : ∃ log', (s.relocate f log).define _ = _ :=
        s.define_relocate ⟨name, params, body, s.frame, pos⟩
      rw [Closure.relocate, ← frame] at defined
      obtain ⟨log', defined⟩ := defined
      exact .bind (.set log' defined) fun _ => .pure rfl

theorem callBuiltin_relocates (b : Builtin) (args : List Value) :
    Relocates f (Value.relocate f) (callBuiltin b args pos)
      (callBuiltin b (args.map (Value.relocate f)) (f pos)) := by
  unfold callBuiltin
  refine .bind (.lift (b.call_relocate args)) fun result => ?_
  refine .bind (.modify fun s log => ⟨_, rfl⟩) fun _ => .pure rfl

def Invokes (f : Position → Position)
    (call call' : Closure → List Value → Position → Eval Value) : Prop :=
  ∀ c args pos, Relocates f (Value.relocate f) (call c args pos)
    (call' (c.relocate f) (args.map (Value.relocate f)) (f pos))

section

variable {call call' : Closure → List Value → Position → Eval Value}

theorem function_relocates (calls : Invokes f call call') (name : String)
    {kwargs kwargs' : List Entry} {blk blk' : Option Block} {args args' : Eval (List Value)}
    (none : kwargs'.isEmpty = kwargs.isEmpty) (bare : blk'.isSome = blk.isSome)
    (given : Relocates f (List.map (Value.relocate f)) args args') :
    Relocates f (Value.relocate f) (function call name kwargs blk args pos)
    (function call' name kwargs' blk' args' (f pos)) := by
  unfold function
  refine .get fun s log => ?_
  have found : Fields.get? (s.relocate f log).handlers name =
      (Fields.get? s.handlers name).map (Closure.relocate f) := Fields.get?_mapValues _ _
  dsimp only
  rw [found, none, bare, Option.isNone_map]
  split
  · exact .fail
  · split
    · exact .fail
    · split
      · exact .fail
      · refine given.bind fun vs => ?_
        cases Fields.get? s.handlers name with
        | some c => exact calls c vs pos
        | none =>
          cases Builtin.ofName? name with
          | some b => exact callBuiltin_relocates b vs
          | none => exact .fail

mutual

theorem expr_relocates (inj : Function.Injective f) (calls : Invokes f call call') :
    (e : Expr) → Relocates f (Value.relocate f) (expr call e) (expr call' (e.relocate f))
  | .literal value _ => by
    rw [Expr.relocate, expr, expr]
    exact .pure (literal_relocate value).symm
  | .interpolated ps _ => by
    rw [Expr.relocate, expr, expr]
    exact (parts_relocates inj calls ps).bind fun text => .pure rfl
  | .ident name _ => by
    rw [Expr.relocate, expr, expr]
    refine .get fun s log => .pure ?_
    rw [s.lookup_relocate]
    cases s.lookup name <;> rfl
  | .symbol name _ => by
    rw [Expr.relocate, expr, expr]
    exact .pure rfl
  | .list items _ => by
    rw [Expr.relocate, expr, expr]
    refine (exprs_relocates inj calls items).bind fun vs => .pure ?_
    rw [Value.relocate, Value.relocateItems_eq_map]
  | .map es _ => by
    rw [Expr.relocate, expr, expr]
    refine (entries_relocates inj calls es []).bind fun fields => .pure ?_
    rw [Value.relocate, Value.relocateEntries_eq_mapValues]
  | .call name args kwargs blk pos => by
    rw [Expr.relocate, expr, expr]
    split
    next kind _ =>
      refine (build_relocates (by cases args <;> rfl) (widgetArgs_relocates inj calls kind kwargs _)
        (children_relocates inj calls kind blk)).bind fun w => .pure ?_
      rw [Value.relocate]
    next =>
      exact function_relocates calls name (by cases kwargs <;> rfl) (by cases blk <;> rfl)
        (exprs_relocates inj calls args)
  | .index target key pos => by
    rw [Expr.relocate, expr, expr]
    refine (expr_relocates inj calls target).bind fun t => ?_
    refine (expr_relocates inj calls key).bind fun k => ?_
    exact .liftType (Value.index_relocate t k)
  | .field target name pos => by
    rw [Expr.relocate, expr, expr]
    exact (expr_relocates inj calls target).bind fun t => .liftType (Value.field_relocate t name)
  | .unary op operand pos => by
    rw [Expr.relocate, expr, expr]
    exact (expr_relocates inj calls operand).bind fun v => .liftType (Value.unary_relocate op v)
  | .binary op lhs rhs pos => by
    rw [Expr.relocate, expr, expr]
    refine (expr_relocates inj calls lhs).bind fun l => ?_
    rw [Value.isTruthy_relocate]
    split
    · split
      · exact expr_relocates inj calls rhs
      · exact .pure rfl
    · split
      · exact .pure rfl
      · exact expr_relocates inj calls rhs
    · refine (expr_relocates inj calls rhs).bind fun r => ?_
      exact .liftType (Value.binary_relocate inj _ l r)

theorem exprs_relocates (inj : Function.Injective f) (calls : Invokes f call call') :
    (es : List Expr) →
    Relocates f (List.map (Value.relocate f)) (exprs call es) (exprs call' (Expr.relocateAll f es))
  | [] => by
    rw [Expr.relocateAll, exprs, exprs]
    exact .pure rfl
  | e :: es => by
    rw [Expr.relocateAll, exprs, exprs]
    exact (expr_relocates inj calls e).bind fun v =>
      (exprs_relocates inj calls es).bind fun vs => .pure rfl

theorem parts_relocates (inj : Function.Injective f) (calls : Invokes f call call') :
    (ps : List Part) → Relocates f id (parts call ps) (parts call' (Part.relocateAll f ps))
  | [] => by
    rw [Part.relocateAll, parts, parts]
    exact .pure rfl
  | .text text :: ps => by
    rw [Part.relocateAll, Part.relocate, parts, parts]
    exact (parts_relocates inj calls ps).bind fun rest => .pure rfl
  | .hole e :: ps => by
    rw [Part.relocateAll, Part.relocate, parts, parts]
    refine (expr_relocates inj calls e).bind fun v =>
      (parts_relocates inj calls ps).bind fun rest => .pure ?_
    rw [Value.text_relocate]
    rfl

theorem entries_relocates (inj : Function.Injective f) (calls : Invokes f call call') :
    (es : List Entry) → ∀ fields : Fields Value,
    Relocates f (Fields.mapValues (Value.relocate f)) (entries call fields es)
    (entries call' (Fields.mapValues (Value.relocate f) fields) (Entry.relocateAll f es))
  | [], fields => by
    rw [Entry.relocateAll, entries, entries]
    exact .pure rfl
  | .mk key e _ :: es, fields => by
    rw [Entry.relocateAll, Entry.relocate, entries, entries]
    refine (expr_relocates inj calls e).bind fun v => ?_
    rw [Fields.insert_mapValues]
    exact entries_relocates inj calls es _

theorem widgetArgs_relocates (inj : Function.Injective f) (calls : Invokes f call call')
    (kind : Kind) : (es : List Entry) → ∀ given : WidgetArgs,
    Relocates f id (widgetArgs call kind given es)
    (widgetArgs call' kind given (Entry.relocateAll f es))
  | [], given => by
    rw [Entry.relocateAll, widgetArgs, widgetArgs]
    exact .pure rfl
  | .mk key e pos :: es, given => by
    rw [Entry.relocateAll, Entry.relocate, widgetArgs, widgetArgs]
    refine (expr_relocates inj calls e).bind fun v => ?_
    refine (add_relocates given kind key v).bind fun given => ?_
    exact widgetArgs_relocates inj calls kind es given

theorem children_relocates (inj : Function.Injective f) (calls : Invokes f call call')
    (kind : Kind) : (blk : Option Block) → ∀ id,
    Relocates f (List.map (Widget.relocate f)) (children call kind blk id)
    (children call' kind (Block.relocate? f blk) id)
  | none, id => by
    rw [Block.relocate?, children, children]
    exact .pure rfl
  | some (.mk _ body pos), id => by
    rw [Block.relocate?, Block.relocate, children, children]
    split
    · exact inside_relocates (stmts_relocates inj calls body .nil)
    · exact .fail

theorem stmt_relocates (inj : Function.Injective f) (calls : Invokes f call call') :
    (st : Stmt) → Relocates f (Value.relocate f) (stmt call st) (stmt call' (st.relocate f))
  | .expr e => by
    cases e with
    | call name args kwargs blk pos =>
      rw [Stmt.relocate, Expr.relocate, stmt, stmt]
      split
      next kind _ =>
        exact (build_relocates (by cases args <;> rfl) (widgetArgs_relocates inj calls kind kwargs _)
          (children_relocates inj calls kind blk)).bind fun w => place_relocates w
      next =>
        exact function_relocates calls name (by cases kwargs <;> rfl) (by cases blk <;> rfl)
          (exprs_relocates inj calls args)
    | ident name pos =>
      rw [Stmt.relocate, Expr.relocate, stmt, stmt]
      refine .get fun s log => ?_
      have found : Fields.get? (s.relocate f log).handlers name =
          (Fields.get? s.handlers name).map (Closure.relocate f) := Fields.get?_mapValues _ _
      rw [s.lookup_relocate, found]
      cases s.lookup name with
      | some v => exact .pure rfl
      | none =>
        cases Fields.get? s.handlers name with
        | none => exact .pure rfl
        | some c =>
          dsimp only [Option.map_none, Option.map_some, Closure.relocate]
          split
          · exact calls c [] pos
          · exact .pure rfl
    | literal | interpolated | symbol | list | map | index | field | unary | binary =>
      rw [Stmt.relocate, stmt, stmt]
      · exact expr_relocates inj calls _
      all_goals simp [Expr.relocate]
  | .assign name e _ => by
    rw [Stmt.relocate, stmt, stmt]
    refine (expr_relocates inj calls e).bind fun v => ?_
    exact .bind (.modify fun s log => ⟨log, s.assign_relocate name v⟩) fun _ => .pure rfl
  | .define name params body pos => by
    rw [Stmt.relocate, stmt, stmt]
    exact define_relocates name params body
  | .cond test yes no _ => by
    rw [Stmt.relocate, stmt, stmt]
    refine (expr_relocates inj calls test).bind fun v => ?_
    rw [Value.isTruthy_relocate]
    cases v.isTruthy with
    | true => exact block_relocates (stmts_relocates inj calls yes .nil)
    | false => exact block_relocates (stmts_relocates inj calls no .nil)

theorem stmts_relocates (inj : Function.Injective f) (calls : Invokes f call call') :
    (ss : List Stmt) → ∀ last : Value,
    Relocates f (Value.relocate f) (stmts call last ss)
    (stmts call' (last.relocate f) (Stmt.relocateAll f ss))
  | [], last => by
    rw [Stmt.relocateAll, stmts, stmts]
    exact .pure rfl
  | st :: ss, last => by
    rw [Stmt.relocateAll, stmts, stmts]
    exact (stmt_relocates inj calls st).bind fun v => stmts_relocates inj calls ss v

end

end

/-- By induction on the levels of calls that are left. -/
theorem invoke_relocates (inj : Function.Injective f) (limit levels : Nat) :
    Invokes f (invoke limit levels) (invoke limit levels) := by
  induction levels with
  | zero =>
    intro c args pos
    unfold invoke
    simp only [Closure.relocate_name, Closure.relocate_params, List.length_map]
    split
    · exact .fail
    · exact .fail
  | succ levels ih =>
    intro c args pos
    have frame : Fields.extend (c.relocate f).captured
        (c.params.zip (args.map (Value.relocate f))) =
          Fields.mapValues (Value.relocate f) (Fields.extend c.captured (c.params.zip args)) := by
      rw [← Fields.extend_mapValues, Fields.mapValues, List.zip_map_right]
      rfl
    unfold invoke
    simp only [Closure.relocate_name, Closure.relocate_params, List.length_map, frame]
    split
    · exact .fail
    · refine .bind (.modify fun s log => ⟨log, s.enterCall_relocate _⟩) fun _ => ?_
      refine (stmts_relocates inj ih c.body .nil).bind fun v => ?_
      exact .bind (.modify fun s log => ⟨log, s.leaveCall_relocate⟩) fun _ => .pure rfl

end Eval

def Closure.bare (c : Closure) : Closure where
  name := c.name
  params := c.params
  body := Stmt.bareAll c.body
  captured := Fields.mapValues Value.bare c.captured
  pos := .none

def Evaluation.bare (ev : Evaluation) : Evaluation where
  forest := ⟨ev.forest.roots.map Widget.bare⟩
  handlers := Fields.mapValues Closure.bare ev.handlers

/-- The place of the first of two widgets is part of the fault that they have one id. -/
def SemanticFault.bare : SemanticFault → SemanticFault
  | .duplicateId id _ => .duplicateId id .none
  | fault => fault

def SemanticError.bare (e : SemanticError) : SemanticError := ⟨e.fault.bare, .none⟩

def Script.outcome (script : Script) (maxCallDepth : Nat) : Except SemanticError Evaluation :=
  ((script.evaluate maxCallDepth).1.map Evaluation.bare).mapError SemanticError.bare

variable {f : Position → Position}

theorem Closure.bare_relocate (c : Closure) : (c.relocate f).bare = c.bare := by
  have captured : Value.bare ∘ Value.relocate f = Value.bare := funext Value.bare_relocate
  rw [Closure.bare, Closure.bare, Closure.relocate]
  simp only [Stmt.bareAll_relocateAll, Fields.mapValues_mapValues, captured]

theorem Forest.repeated?_relocate (seen ws : List Widget) :
    repeated? (seen.map (Widget.relocate f)) (ws.map (Widget.relocate f)) =
      (repeated? seen ws).map fun pair => (pair.1.relocate f, pair.2.relocate f) := by
  induction ws generalizing seen with
  | nil => rfl
  | cons w ws ih =>
    have found : (seen.map (Widget.relocate f)).find? (·.id == (w.relocate f).id) =
        (seen.find? (·.id == w.id)).map (Widget.relocate f) := by
      simp only [List.find?_map, Function.comp_def, Widget.relocate_id]
    rw [List.map_cons, repeated?, repeated?, found]
    cases seen.find? (·.id == w.id) with
    | some first => rfl
    | none => simpa using ih (seen ++ [w])

theorem Script.outcome_relocate (inj : Function.Injective f) (script : Script)
    (maxCallDepth : Nat) :
    (script.relocate f).outcome maxCallDepth = script.outcome maxCallDepth := by
  have run : Eval.Echoes f (Value.relocate f)
      (Eval.stmts (Eval.invoke maxCallDepth maxCallDepth) .nil script.body
        (.start [] [.roots []]))
      (Eval.stmts (Eval.invoke maxCallDepth maxCallDepth) .nil (script.relocate f).body
        (.start [] [.roots []])) :=
    Eval.stmts_relocates inj (Eval.invoke_relocates inj maxCallDepth maxCallDepth) script.body .nil
      (.start [] [.roots []]) []
  unfold outcome evaluate
  dsimp only
  generalize (Eval.stmts _ _ script.body _ : Except SemanticError Value × EvalState) = r at run ⊢
  generalize (Eval.stmts _ _ (script.relocate f).body _ :
    Except SemanticError Value × EvalState) = r' at run ⊢
  cases run with
  | error e s s' => rfl
  | ok v s log =>
    dsimp only
    rw [s.attached_relocate]
    unfold Forest.unique Forest.firstDuplicate? Forest.preorder
    rw [← Widget.relocateAll_eq_map, Widget.preorderAll_relocateAll]
    have same := Forest.repeated?_relocate (f := f) [] (Widget.preorderAll s.attached)
    rw [List.map_nil] at same
    rw [same]
    cases Forest.repeated? [] (Widget.preorderAll s.attached) with
    | some pair => simp [Except.map, Except.mapError, SemanticError.bare, SemanticFault.bare]
    | none =>
      have widgets : Widget.bare ∘ Widget.relocate f = Widget.bare :=
        funext Widget.bare_relocate
      have functions : Closure.bare ∘ Closure.relocate f = Closure.bare :=
        funext Closure.bare_relocate
      simp [Except.map, Except.mapError, Evaluation.bare, EvalState.relocate,
        Widget.relocateAll_eq_map, widgets, Fields.mapValues_mapValues, functions]

end WidgetScript
