import WidgetScript.Eval.Script
import WidgetScript.Proofs.Eval.Run

/-! What every run of a script keeps. A discipline says what is to hold of states, of the
state before and after a run, and of what a run gives; it is lawful if each single step of
the evaluator keeps it. The induction over scripts is done here once for all of them. -/
namespace WidgetScript.Eval

/-- An invariant of states, a relation from the state before a run to the one after it, and
what is to hold of values, properties and functions. `widget` and `row` say which widgets may
be attached in a state, and which a block may have attached. -/
structure Discipline where
  inv : EvalState → Prop
  rel : EvalState → EvalState → Prop
  value : Value → Prop
  props : Properties → Prop
  closure : Closure → Prop
  widget : EvalState → Widget → Prop
  row : EvalState → List Widget → Prop

namespace Discipline

/-- Each step of the evaluator keeps the discipline. -/
structure Lawful (D : Discipline) : Prop where
  refl : ∀ s, D.rel s s
  trans : ∀ {s t u}, D.rel s t → D.rel t u → D.rel s u
  level : ∀ {s t}, D.rel s t → t.widgetDepth = s.widgetDepth
  literal : ∀ l, D.value (literal l)
  str : ∀ text, D.value (.str text)
  symbol : ∀ name, D.value (.symbol name)
  list : ∀ vs, (∀ v ∈ vs, D.value v) → D.value (.list vs)
  emptyMap : D.value (.map [])
  insert : ∀ fields key v, D.value (.map fields) → D.value v →
    D.value (.map (Fields.insert key v fields))
  unary : ∀ op v w, D.value v → Value.unary op v = .ok w → D.value w
  binary : ∀ op l r w, D.value l → D.value r → Value.binary op l r = .ok w → D.value w
  index : ∀ v k w, D.value v → Value.index v k = .ok w → D.value w
  field : ∀ v name w, D.value v → Value.field v name = .ok w → D.value w
  builtin : ∀ (b : Builtin) args w lines, b.call args = .ok (w, lines) → D.value w
  noProps : D.props []
  addProp : ∀ props key v p, D.props props → D.value v → key ≠ "id" →
    Property.coerce key v = .ok (some p) → D.props (Fields.insert key p props)
  lookup : ∀ s name v, D.inv s → s.lookup name = some v → D.value v
  function : ∀ s name c, D.inv s → Fields.get? s.handlers name = some c → D.closure c
  log : ∀ (s : EvalState) lines, D.inv s → D.inv { s with log := s.log ++ lines } ∧
    D.rel s { s with log := s.log ++ lines }
  assign : ∀ s name v, D.inv s → D.value v → D.inv (s.assign name v) ∧ D.rel s (s.assign name v)
  define : ∀ (s : EvalState) name params body pos, D.inv s → s.callDepth = 0 →
    s.blockDepth = 0 → Kind.ofName? name = none →
    D.inv (s.define ⟨name, params, body, s.frame, pos⟩) ∧
      D.rel s (s.define ⟨name, params, body, s.frame, pos⟩)
  enterBlock : ∀ s, D.inv s → D.inv s.enterBlock
  leaveBlock : ∀ s t, D.inv s → D.rel s.enterBlock t → D.inv t →
    D.inv t.leaveBlock ∧ D.rel s t.leaveBlock
  enterCall : ∀ (s : EvalState) c args, D.inv s → D.closure c → (∀ v ∈ args, D.value v) →
    D.inv (s.enterCall (Fields.extend c.captured (c.params.zip args)))
  leaveCall : ∀ (s : EvalState) frame t, D.inv s → D.rel (s.enterCall frame) t → D.inv t →
    D.inv t.leaveCall ∧ D.rel s t.leaveCall
  enterWidget : ∀ s, D.inv s → s.widgetDepth < Widget.maxDepth → D.inv s.enterWidget
  leaveWidget : ∀ s t, D.inv s → D.rel s.enterWidget t → D.inv t →
    D.inv t.leaveWidget ∧ D.rel s t.leaveWidget ∧ D.row t.leaveWidget t.attached
  noRow : ∀ s, D.row s []
  build : ∀ (s : EvalState) kind id props ws pos, D.inv s → s.widgetDepth < Widget.maxDepth →
    id ≠ "" → D.props props → (kind.isContainer = true ∨ ws = []) → D.row s ws →
    D.widget s ⟨kind, id, props, ws, pos⟩ ∧ D.value (.node ⟨kind, id, props, ws, pos⟩)
  attach : ∀ s w u t, D.inv s → D.widget s w → Yields (attach w) s u t → D.inv t ∧ D.rel s t

/-- Run from `s` the computation keeps the discipline, and what it gives satisfies `post` in
the state that it leaves. -/
def Keeps {α : Type} (D : Discipline) (s : EvalState) (m : Eval α) (post : EvalState → α → Prop) :
    Prop :=
  D.inv s → ∀ a t, Yields m s a t → D.inv t ∧ D.rel s t ∧ post t a

def Gives (D : Discipline) (s : EvalState) (m : Eval Value) : Prop :=
  D.Keeps s m fun _ v => D.value v

namespace Keeps
variable {α β : Type} {D : Discipline} {s : EvalState} {m : Eval α} {f : α → Eval β} {a : α}
  {p p' : EvalState → α → Prop} {q : EvalState → β → Prop} {pos : Position}

theorem bind (lawful : D.Lawful) (first : D.Keeps s m p)
    (next : ∀ t a, D.inv t → D.rel s t → p t a → D.Keeps t (f a) q) : D.Keeps s (m >>= f) q := by
  intro inv b u run
  obtain ⟨a, t, run, run'⟩ := yields_bind.1 run
  obtain ⟨inv', rel, post⟩ := first inv a t run
  obtain ⟨inv'', rel', post'⟩ := next t a inv' rel post inv' b u run'
  exact ⟨inv'', lawful.trans rel rel', post'⟩

theorem pure (lawful : D.Lawful) (h : D.inv s → p s a) : D.Keeps s (pure a) p := by
  intro inv b t run
  obtain ⟨rfl, rfl⟩ := yields_pure.1 run
  exact ⟨inv, lawful.refl _, h inv⟩

theorem fail {fault : SemanticFault} : D.Keeps s (fail fault pos) p := by
  intro _ a t run
  exact absurd run not_yields_fail

theorem get {f : EvalState → Eval β} (h : D.inv s → D.Keeps s (f s) q) :
    D.Keeps s (MonadState.get >>= f) q := by
  intro inv b u run
  exact h inv inv b u (yields_get_bind.1 run)

theorem liftType (lawful : D.Lawful) {r : Except TypeFault α} (h : ∀ a, r = .ok a → p s a) :
    D.Keeps s (Eval.liftType pos r) p := by
  intro inv a t run
  obtain ⟨ok, rfl⟩ := yields_liftType.1 run
  exact ⟨inv, lawful.refl _, h a ok⟩

theorem modify {f : EvalState → EvalState} {p : EvalState → Unit → Prop}
    (h : D.inv s → D.inv (f s) ∧ D.rel s (f s) ∧ p (f s) ()) :
    D.Keeps s (MonadState.modifyGet fun s => ((), f s)) p := by
  intro inv a t run
  cases yields_modify.1 run
  exact h inv

theorem mono (h : D.Keeps s m p) (weaker : ∀ t a, p t a → p' t a) : D.Keeps s m p' := by
  intro inv a t run
  obtain ⟨inv', rel, post⟩ := h inv a t run
  exact ⟨inv', rel, weaker t a post⟩

end Keeps

section
variable {D : Discipline} (lawful : D.Lawful) {s : EvalState} {kind : Kind} {pos : Position}
include lawful

theorem keeps_add {given : WidgetArgs} {key : String} {v : Value}
    (props : D.props given.props) (named : ∀ id, given.id = some id → id ≠ "") (hv : D.value v) :
    D.Keeps s (given.add kind key v pos) fun _ args =>
      D.props args.props ∧ ∀ id, args.id = some id → id ≠ "" := by
  unfold WidgetArgs.add
  split
  · split
    · split
      · exact .fail
      next id _ nonempty =>
        refine .pure lawful fun _ => ⟨props, fun id' h => ?_⟩
        cases h
        rintro rfl
        exact nonempty rfl
    · exact .fail
  next other =>
    split
    next p coerced =>
      exact .pure lawful fun _ => ⟨lawful.addProp _ _ _ _ props hv other coerced, named⟩
    next => exact .pure lawful fun _ => ⟨props, named⟩
    next => exact .fail

theorem keeps_build {positional : List Expr} {given : Eval WidgetArgs}
    {children : String → Eval (List Widget)}
    (args : ∀ s, D.Keeps s given fun _ args =>
      D.props args.props ∧ ∀ id, args.id = some id → id ≠ "")
    (below : ∀ s id, s.widgetDepth < Widget.maxDepth → D.Keeps s (children id) fun t ws =>
      D.row t ws ∧ (kind.isContainer = true ∨ ws = [])) :
    D.Keeps s (build kind positional given children pos) fun t w =>
      D.widget t w ∧ D.value (.node w) := by
  intro inv w v run
  obtain ⟨room, -, given, t, id, ws, ran, named, inner, rfl⟩ := yields_build.1 run
  obtain ⟨inv', rel, props, nonempty⟩ := args s inv given t ran
  rw [← lawful.level rel] at room
  obtain ⟨inv'', rel', row, leaf⟩ := below t id room inv' ws v inner
  rw [← lawful.level rel'] at room
  exact ⟨inv'', lawful.trans rel rel',
    lawful.build v _ _ _ _ _ inv'' room (nonempty id named) props leaf row⟩

theorem keeps_inside {block : Eval Value} (body : ∀ s, D.Gives s block)
    (room : s.widgetDepth < Widget.maxDepth) :
    D.Keeps s (inside block) fun t ws => D.row t ws := by
  intro inv ws u run
  obtain ⟨v, t, ran, rfl, rfl⟩ := yields_inside.1 run
  obtain ⟨inv', rel, _⟩ := body _ (lawful.enterWidget s inv room) v _ ran
  exact lawful.leaveWidget s _ inv rel inv'

theorem keeps_block {body : Eval Value} (h : ∀ s, D.Gives s body) : D.Gives s (do
    modify EvalState.enterBlock
    let result ← body
    modify EvalState.leaveBlock
    pure result) := by
  intro inv v u run
  obtain ⟨t', body, rfl⟩ := yields_between.1 run
  obtain ⟨inv', rel, good⟩ := h _ (lawful.enterBlock s inv) _ _ body
  obtain ⟨inv'', rel'⟩ := lawful.leaveBlock s t' inv rel inv'
  exact ⟨inv'', rel', good⟩

theorem keeps_place {w : Widget} (h : D.inv s → D.widget s w ∧ D.value (.node w)) :
    D.Gives s (place w) := by
  intro inv v t run
  rcases yields_place.1 run with ⟨-, rfl, rfl⟩ | ⟨-, rfl, u, ran⟩
  · exact ⟨inv, lawful.refl _, (h inv).2⟩
  · obtain ⟨inv', rel⟩ := lawful.attach s w u t inv (h inv).1 ran
    exact ⟨inv', rel, lawful.literal .nil⟩

theorem keeps_define {name : String} {params : List String} {body : List Stmt} :
    D.Gives s (define name params body pos) := by
  intro inv v t run
  obtain ⟨calls, blocks, free, rfl, rfl⟩ := define_yields run
  obtain ⟨inv', rel⟩ := lawful.define s name params body pos inv calls blocks free
  exact ⟨inv', rel, lawful.literal .nil⟩

theorem keeps_callBuiltin {b : Builtin} {args : List Value} :
    D.Gives s (callBuiltin b args pos) := by
  intro inv v t run
  obtain ⟨lines, called, rfl⟩ := yields_callBuiltin.1 run
  obtain ⟨inv', rel⟩ := lawful.log s lines inv
  exact ⟨inv', rel, lawful.builtin b args v lines called⟩

end

def Calls (D : Discipline) (call : Closure → List Value → Position → Eval Value) : Prop :=
  ∀ s c args pos, D.closure c → (∀ v ∈ args, D.value v) → D.Gives s (call c args pos)

section

variable {D : Discipline} (lawful : D.Lawful)
  {call : Closure → List Value → Position → Eval Value}
include lawful

theorem keeps_function (calls : D.Calls call) {s : EvalState} {name : String} {kwargs : List Entry}
    {blk : Option Block} {args : Eval (List Value)} {pos : Position}
    (given : ∀ s, D.Keeps s args fun _ vs => ∀ v ∈ vs, D.value v) :
    D.Gives s (function call name kwargs blk args pos) := by
  intro inv v u run
  obtain ⟨-, -, vs, t, ran, rest⟩ := function_yields run
  obtain ⟨inv', rel, good⟩ := given s inv vs t ran
  rcases rest with ⟨c, found, called⟩ | ⟨b, -, -, called⟩
  · obtain ⟨inv'', rel', kept⟩ :=
      calls t c vs pos (lawful.function s name c inv found) good inv' v u called
    exact ⟨inv'', lawful.trans rel rel', kept⟩
  · obtain ⟨inv'', rel', kept⟩ := keeps_callBuiltin lawful inv' v u called
    exact ⟨inv'', lawful.trans rel rel', kept⟩

mutual

theorem expr_keeps (calls : D.Calls call) : (e : Expr) → ∀ s, D.Gives s (expr call e)
  | .literal value _, s => by
    rw [expr]
    exact .pure lawful fun _ => lawful.literal value
  | .interpolated ps _, s => by
    rw [expr]
    exact .bind lawful (parts_keeps calls ps s) fun t text _ _ _ =>
      .pure lawful fun _ => lawful.str text
  | .ident name _, s => by
    rw [expr]
    refine .get fun inv => .pure lawful fun _ => ?_
    cases found : s.lookup name with
    | none => exact lawful.symbol name
    | some v => exact lawful.lookup s name v inv found
  | .symbol name _, s => by
    rw [expr]
    exact .pure lawful fun _ => lawful.symbol name
  | .list items _, s => by
    rw [expr]
    exact .bind lawful (exprs_keeps calls items s) fun t vs _ _ good =>
      .pure lawful fun _ => lawful.list vs good
  | .map es _, s => by
    rw [expr]
    exact .bind lawful (entries_keeps calls es [] lawful.emptyMap s) fun t fields _ _ good =>
      .pure lawful fun _ => good
  | .call name args kwargs blk pos, s => by
    rw [expr]
    split
    next kind _ =>
      refine .bind lawful (keeps_build lawful
        (widgetArgs_keeps calls kind kwargs ⟨none, []⟩ lawful.noProps (fun _ h => nomatch h))
        (children_keeps calls kind blk)) fun t w _ _ good => .pure lawful fun _ => good.2
    next => exact keeps_function lawful calls (exprs_keeps calls args)
  | .index target key pos, s => by
    rw [expr]
    refine .bind lawful (expr_keeps calls target s) fun t v _ _ hv => ?_
    refine .bind lawful (expr_keeps calls key t) fun u k _ _ _ => ?_
    exact .liftType lawful fun w h => lawful.index v k w hv h
  | .field target name pos, s => by
    rw [expr]
    refine .bind lawful (expr_keeps calls target s) fun t v _ _ hv => ?_
    exact .liftType lawful fun w h => lawful.field v name w hv h
  | .unary op operand pos, s => by
    rw [expr]
    refine .bind lawful (expr_keeps calls operand s) fun t v _ _ hv => ?_
    exact .liftType lawful fun w h => lawful.unary op v w hv h
  | .binary op lhs rhs pos, s => by
    rw [expr]
    refine .bind lawful (expr_keeps calls lhs s) fun t l _ _ hl => ?_
    split
    · split
      · exact expr_keeps calls rhs t
      · exact .pure lawful fun _ => hl
    · split
      · exact .pure lawful fun _ => hl
      · exact expr_keeps calls rhs t
    · refine .bind lawful (expr_keeps calls rhs t) fun u r _ _ hr => ?_
      exact .liftType lawful fun w h => lawful.binary _ l r w hl hr h

theorem exprs_keeps (calls : D.Calls call) :
    (es : List Expr) → ∀ s, D.Keeps s (exprs call es) fun _ vs => ∀ v ∈ vs, D.value v
  | [], s => by
    rw [exprs]
    exact .pure lawful fun _ => by simp
  | e :: es, s => by
    rw [exprs]
    refine .bind lawful (expr_keeps calls e s) fun t v _ _ hv => ?_
    refine .bind lawful (exprs_keeps calls es t) fun u vs _ _ hvs => ?_
    exact .pure lawful fun _ => List.forall_mem_cons.2 ⟨hv, hvs⟩

theorem parts_keeps (calls : D.Calls call) :
    (ps : List Part) → ∀ s, D.Keeps s (parts call ps) fun _ _ => True
  | [], s => by
    rw [parts]
    exact .pure lawful fun _ => trivial
  | .text text :: ps, s => by
    rw [parts]
    exact .bind lawful (parts_keeps calls ps s) fun t _ _ _ _ => .pure lawful fun _ => trivial
  | .hole e :: ps, s => by
    rw [parts]
    refine .bind lawful (expr_keeps calls e s) fun t v _ _ _ => ?_
    exact .bind lawful (parts_keeps calls ps t) fun u _ _ _ _ => .pure lawful fun _ => trivial

theorem entries_keeps (calls : D.Calls call) :
    (es : List Entry) → ∀ fields, D.value (.map fields) → ∀ s,
    D.Keeps s (entries call fields es) fun _ fields => D.value (.map fields)
  | [], fields, good, s => by
    rw [entries]
    exact .pure lawful fun _ => good
  | .mk key e _ :: es, fields, good, s => by
    rw [entries]
    refine .bind lawful (expr_keeps calls e s) fun t v _ _ hv => ?_
    exact entries_keeps calls es _ (lawful.insert fields key v good hv) t

theorem widgetArgs_keeps (calls : D.Calls call) (kind : Kind) :
    (es : List Entry) → ∀ given : WidgetArgs, D.props given.props →
    (∀ id, given.id = some id → id ≠ "") → ∀ s,
    D.Keeps s (widgetArgs call kind given es) fun _ args =>
      D.props args.props ∧ ∀ id, args.id = some id → id ≠ ""
  | [], given, props, named, s => by
    rw [widgetArgs]
    exact .pure lawful fun _ => ⟨props, named⟩
  | .mk key e pos :: es, given, props, named, s => by
    rw [widgetArgs]
    refine .bind lawful (expr_keeps calls e s) fun t v _ _ hv => ?_
    refine .bind lawful (keeps_add lawful props named hv) fun u given' _ _ good => ?_
    exact widgetArgs_keeps calls kind es given' good.1 good.2 u

theorem children_keeps (calls : D.Calls call) (kind : Kind) :
    (blk : Option Block) → ∀ s id, s.widgetDepth < Widget.maxDepth →
    D.Keeps s (children call kind blk id) fun t ws =>
      D.row t ws ∧ (kind.isContainer = true ∨ ws = [])
  | none, s, id, _ => by
    rw [children]
    exact .pure lawful fun _ => ⟨lawful.noRow s, .inr rfl⟩
  | some (.mk _ body pos), s, id, room => by
    rw [children]
    split
    next container =>
      exact (keeps_inside lawful (stmts_keeps calls body .nil (lawful.literal .nil)) room).mono
        fun _ _ row => ⟨row, .inl container⟩
    next => exact .fail

theorem stmt_keeps (calls : D.Calls call) : (st : Stmt) → ∀ s, D.Gives s (stmt call st)
  | .expr e, s => by
    cases e with
    | call name args kwargs blk pos =>
      rw [stmt]
      split
      next kind _ =>
        refine .bind lawful (keeps_build lawful
          (widgetArgs_keeps calls kind kwargs ⟨none, []⟩ lawful.noProps (fun _ h => nomatch h))
          (children_keeps calls kind blk)) fun t w _ _ good => ?_
        exact keeps_place lawful fun _ => good
      next => exact keeps_function lawful calls (exprs_keeps calls args)
    | ident name pos =>
      rw [stmt]
      refine .get fun inv => ?_
      split
      next v found => exact .pure lawful fun _ => lawful.lookup s name v inv found
      next c _ found =>
        split
        · exact calls s c [] pos (lawful.function s name c inv found) (by simp)
        · exact .pure lawful fun _ => lawful.symbol name
      next => exact .pure lawful fun _ => lawful.symbol name
    | literal | interpolated | symbol | list | map | index | field | unary | binary =>
      rw [stmt]
      · exact expr_keeps calls _ s
      all_goals simp
  | .assign name e _, s => by
    rw [stmt]
    refine .bind lawful (expr_keeps calls e s) fun t v _ _ hv => ?_
    refine .bind lawful (p := fun _ _ => True) (.modify fun inv => ?_) fun u _ _ _ _ =>
      .pure lawful fun _ => hv
    obtain ⟨inv', rel⟩ := lawful.assign t name v inv hv
    exact ⟨inv', rel, trivial⟩
  | .define name params body pos, s => by
    rw [stmt]
    exact keeps_define lawful
  | .cond test yes no _, s => by
    rw [stmt]
    refine .bind lawful (expr_keeps calls test s) fun t v _ _ _ => ?_
    cases v.isTruthy with
    | true => exact keeps_block lawful (stmts_keeps calls yes .nil (lawful.literal .nil))
    | false => exact keeps_block lawful (stmts_keeps calls no .nil (lawful.literal .nil))

theorem stmts_keeps (calls : D.Calls call) :
    (ss : List Stmt) → ∀ last, D.value last → ∀ s, D.Gives s (stmts call last ss)
  | [], last, good, s => by
    rw [stmts]
    exact .pure lawful fun _ => good
  | st :: ss, last, good, s => by
    rw [stmts]
    refine .bind lawful (stmt_keeps calls st s) fun t v _ _ hv => ?_
    exact stmts_keeps calls ss v hv t

end

end

/-- Calls keep the discipline to any depth, by induction on the levels that are left. -/
theorem invoke_keeps {D : Discipline} (lawful : D.Lawful) (limit levels : Nat) :
    D.Calls (invoke limit levels) := by
  induction levels with
  | zero =>
    intro s c args pos _ _ _ v u run
    obtain ⟨-, below, -, none, -⟩ := yields_invoke.1 run
    exact nomatch none
  | succ levels ih =>
    intro s c args pos known good inv v u run
    obtain ⟨-, below, t, level, ran, rfl⟩ := yields_invoke.1 run
    cases level
    have entered := lawful.enterCall s c args inv known good
    obtain ⟨inv', rel, kept⟩ :=
      stmts_keeps lawful ih c.body .nil (lawful.literal .nil) _ entered _ _ ran
    obtain ⟨inv'', rel'⟩ := lawful.leaveCall s _ t inv rel inv'
    exact ⟨inv'', rel', kept⟩

end Discipline
end WidgetScript.Eval
