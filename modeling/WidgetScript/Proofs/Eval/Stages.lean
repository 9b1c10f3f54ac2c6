import Mathlib.Logic.Relation
import WidgetScript.Proofs.Eval.Restore

/-! The runs that a run is made of. Running a script runs its statements, these run expressions,
blocks and functions, and so on. Whatever kind of run it is, what it opens it has closed again
when it ends; so what a run finds open is open by the runs around it. -/
namespace WidgetScript.Eval

inductive Piece where
  | expr (e : Expr)
  | exprs (es : List Expr)
  | parts (ps : List Part)
  | entries (fields : Fields Value) (es : List Entry)
  | widgetArgs (kind : Kind) (given : WidgetArgs) (es : List Entry)
  | block (kind : Kind) (blk : Option Block) (id : String)
  | widget (kind : Kind) (args : List Expr) (kwargs : List Entry) (blk : Option Block)
      (pos : Position)
  | function (name : String) (args : List Expr) (kwargs : List Entry) (blk : Option Block)
      (pos : Position)
  | invoke (c : Closure) (args : List Value) (pos : Position)
  | place (w : Widget)
  | stmt (st : Stmt)
  | stmts (last : Value) (ss : List Stmt)

/-- A piece with the state from which it is run and the levels of calls that are left. -/
structure Stage where
  levels : Nat
  piece : Piece
  state : EvalState

def widget (limit levels : Nat) (kind : Kind) (args : List Expr) (kwargs : List Entry)
    (blk : Option Block) (pos : Position) : Eval Widget :=
  build kind args (widgetArgs (invoke limit levels) kind ⟨none, []⟩ kwargs)
    (children (invoke limit levels) kind blk) pos

namespace Stage

def Ends (limit : Nat) : Stage → EvalState → Prop
  | ⟨levels, .expr e, s⟩, t => ∃ v, Yields (expr (invoke limit levels) e) s v t
  | ⟨levels, .exprs es, s⟩, t => ∃ vs, Yields (exprs (invoke limit levels) es) s vs t
  | ⟨levels, .parts ps, s⟩, t => ∃ text, Yields (parts (invoke limit levels) ps) s text t
  | ⟨levels, .entries fields es, s⟩, t =>
      ∃ fields', Yields (entries (invoke limit levels) fields es) s fields' t
  | ⟨levels, .widgetArgs kind given es, s⟩, t =>
      ∃ given', Yields (widgetArgs (invoke limit levels) kind given es) s given' t
  | ⟨levels, .block kind blk id, s⟩, t =>
      ∃ ws, Yields (children (invoke limit levels) kind blk id) s ws t
  | ⟨levels, .widget kind args kwargs blk pos, s⟩, t =>
      ∃ w, Yields (Eval.widget limit levels kind args kwargs blk pos) s w t
  | ⟨levels, .function name args kwargs blk pos, s⟩, t =>
      ∃ v, Yields (function (invoke limit levels) name kwargs blk
        (exprs (invoke limit levels) args) pos) s v t
  | ⟨levels, .invoke c args pos, s⟩, t => ∃ v, Yields (invoke limit levels c args pos) s v t
  | ⟨_, .place w, s⟩, t => ∃ v, Yields (place w) s v t
  | ⟨levels, .stmt st, s⟩, t => ∃ v, Yields (stmt (invoke limit levels) st) s v t
  | ⟨levels, .stmts last ss, s⟩, t => ∃ v, Yields (stmts (invoke limit levels) last ss) s v t

/-- In the course of the first run the second one is started: from the same state, or from where
the runs before it have led. Nothing is said of how either of them ends. -/
inductive Starts (limit : Nat) : Stage → Stage → Prop where
  | parts {levels : Nat} {s : EvalState} {ps : List Part} {pos : Position} :
      Starts limit ⟨levels, .expr (.interpolated ps pos), s⟩ ⟨levels, .parts ps, s⟩
  | items {levels : Nat} {s : EvalState} {es : List Expr} {pos : Position} :
      Starts limit ⟨levels, .expr (.list es pos), s⟩ ⟨levels, .exprs es, s⟩
  | entries {levels : Nat} {s : EvalState} {es : List Entry} {pos : Position} :
      Starts limit ⟨levels, .expr (.map es pos), s⟩ ⟨levels, .entries [] es, s⟩
  | target {levels : Nat} {s : EvalState} {e key : Expr} {pos : Position} :
      Starts limit ⟨levels, .expr (.index e key pos), s⟩ ⟨levels, .expr e, s⟩
  | key {levels : Nat} {s t : EvalState} {e key : Expr} {v : Value} {pos : Position} :
      Yields (Eval.expr (invoke limit levels) e) s v t →
      Starts limit ⟨levels, .expr (.index e key pos), s⟩ ⟨levels, .expr key, t⟩
  | owner {levels : Nat} {s : EvalState} {e : Expr} {name : String} {pos : Position} :
      Starts limit ⟨levels, .expr (.field e name pos), s⟩ ⟨levels, .expr e, s⟩
  | operand {levels : Nat} {s : EvalState} {op : UnaryOp} {e : Expr} {pos : Position} :
      Starts limit ⟨levels, .expr (.unary op e pos), s⟩ ⟨levels, .expr e, s⟩
  | left {levels : Nat} {s : EvalState} {op : BinaryOp} {lhs rhs : Expr} {pos : Position} :
      Starts limit ⟨levels, .expr (.binary op lhs rhs pos), s⟩ ⟨levels, .expr lhs, s⟩
  /-- Unless the first operand decides. -/
  | right {levels : Nat} {s t : EvalState} {op : BinaryOp} {lhs rhs : Expr} {v : Value}
      {pos : Position} : Yields (Eval.expr (invoke limit levels) lhs) s v t →
      (op = .and → v.isTruthy = true) → (op = .or → v.isTruthy = false) →
      Starts limit ⟨levels, .expr (.binary op lhs rhs pos), s⟩ ⟨levels, .expr rhs, t⟩
  | item {levels : Nat} {s : EvalState} {e : Expr} {es : List Expr} :
      Starts limit ⟨levels, .exprs (e :: es), s⟩ ⟨levels, .expr e, s⟩
  | afterItem {levels : Nat} {s t : EvalState} {e : Expr} {es : List Expr} {v : Value} :
      Yields (Eval.expr (invoke limit levels) e) s v t →
      Starts limit ⟨levels, .exprs (e :: es), s⟩ ⟨levels, .exprs es, t⟩
  | afterText {levels : Nat} {s : EvalState} {text : String} {ps : List Part} :
      Starts limit ⟨levels, .parts (.text text :: ps), s⟩ ⟨levels, .parts ps, s⟩
  | hole {levels : Nat} {s : EvalState} {e : Expr} {ps : List Part} :
      Starts limit ⟨levels, .parts (.hole e :: ps), s⟩ ⟨levels, .expr e, s⟩
  | afterHole {levels : Nat} {s t : EvalState} {e : Expr} {ps : List Part} {v : Value} :
      Yields (Eval.expr (invoke limit levels) e) s v t →
      Starts limit ⟨levels, .parts (.hole e :: ps), s⟩ ⟨levels, .parts ps, t⟩
  | entry {levels : Nat} {s : EvalState} {fields : Fields Value} {key : String} {e : Expr}
      {es : List Entry} {pos : Position} :
      Starts limit ⟨levels, .entries fields (.mk key e pos :: es), s⟩ ⟨levels, .expr e, s⟩
  | afterEntry {levels : Nat} {s t : EvalState} {fields : Fields Value} {key : String} {e : Expr}
      {es : List Entry} {v : Value} {pos : Position} :
      Yields (Eval.expr (invoke limit levels) e) s v t →
      Starts limit ⟨levels, .entries fields (.mk key e pos :: es), s⟩
        ⟨levels, .entries (Fields.insert key v fields) es, t⟩
  | keyword {levels : Nat} {s : EvalState} {kind : Kind} {given : WidgetArgs} {key : String}
      {e : Expr} {es : List Entry} {pos : Position} :
      Starts limit ⟨levels, .widgetArgs kind given (.mk key e pos :: es), s⟩ ⟨levels, .expr e, s⟩
  | afterKeyword {levels : Nat} {s t u : EvalState} {kind : Kind} {given given' : WidgetArgs}
      {key : String} {e : Expr} {es : List Entry} {v : Value} {pos : Position} :
      Yields (Eval.expr (invoke limit levels) e) s v t →
      Yields (given.add kind key v pos) t given' u →
      Starts limit ⟨levels, .widgetArgs kind given (.mk key e pos :: es), s⟩
        ⟨levels, .widgetArgs kind given' es, u⟩
  | keywords {levels : Nat} {s : EvalState} {kind : Kind} {kwargs : List Entry}
      {blk : Option Block} {pos : Position} : s.widgetDepth < Widget.maxDepth →
      Starts limit ⟨levels, .widget kind [] kwargs blk pos, s⟩
        ⟨levels, .widgetArgs kind ⟨none, []⟩ kwargs, s⟩
  | block {levels : Nat} {s t : EvalState} {kind : Kind} {kwargs : List Entry}
      {blk : Option Block} {given : WidgetArgs} {id : String} {pos : Position} :
      s.widgetDepth < Widget.maxDepth →
      Yields (Eval.widgetArgs (invoke limit levels) kind ⟨none, []⟩ kwargs) s given t →
      given.id = some id →
      Starts limit ⟨levels, .widget kind [] kwargs blk pos, s⟩ ⟨levels, .block kind blk id, t⟩
  | inside {levels : Nat} {s : EvalState} {kind : Kind} {delimiter : Delimiter} {ss : List Stmt}
      {id : String} {pos : Position} : kind.isContainer = true →
      Starts limit ⟨levels, .block kind (some (.mk delimiter ss pos)) id, s⟩
        ⟨levels, .stmts .nil ss, s.enterWidget⟩
  | arguments {levels : Nat} {s : EvalState} {name : String} {args : List Expr} {pos : Position} :
      (Fields.get? s.handlers name).isSome ∨ (Builtin.ofName? name).isSome →
      Starts limit ⟨levels, .function name args [] none pos, s⟩ ⟨levels, .exprs args, s⟩
  | called {levels : Nat} {s t : EvalState} {name : String} {args : List Expr} {c : Closure}
      {vs : List Value} {pos : Position} : Fields.get? s.handlers name = some c →
      Yields (Eval.exprs (invoke limit levels) args) s vs t →
      Starts limit ⟨levels, .function name args [] none pos, s⟩ ⟨levels, .invoke c vs pos, t⟩
  | body {levels : Nat} {s : EvalState} {c : Closure} {vs : List Value} {pos : Position} :
      vs.length = c.params.length →
      Starts limit ⟨levels + 1, .invoke c vs pos, s⟩
        ⟨levels, .stmts .nil c.body, s.enterCall (Fields.extend c.captured (c.params.zip vs))⟩
  | widgetValue {levels : Nat} {s : EvalState} {name : String} {kind : Kind} {args : List Expr}
      {kwargs : List Entry} {blk : Option Block} {pos : Position} :
      Kind.ofName? name = some kind →
      Starts limit ⟨levels, .expr (.call name args kwargs blk pos), s⟩
        ⟨levels, .widget kind args kwargs blk pos, s⟩
  | functionValue {levels : Nat} {s : EvalState} {name : String} {args : List Expr}
      {kwargs : List Entry} {blk : Option Block} {pos : Position} : Kind.ofName? name = none →
      Starts limit ⟨levels, .expr (.call name args kwargs blk pos), s⟩
        ⟨levels, .function name args kwargs blk pos, s⟩
  | widgetStmt {levels : Nat} {s : EvalState} {name : String} {kind : Kind} {args : List Expr}
      {kwargs : List Entry} {blk : Option Block} {pos : Position} :
      Kind.ofName? name = some kind →
      Starts limit ⟨levels, .stmt (.expr (.call name args kwargs blk pos)), s⟩
        ⟨levels, .widget kind args kwargs blk pos, s⟩
  | place {levels : Nat} {s t : EvalState} {name : String} {kind : Kind} {args : List Expr}
      {kwargs : List Entry} {blk : Option Block} {w : Widget} {pos : Position} :
      Kind.ofName? name = some kind →
      Yields (Eval.widget limit levels kind args kwargs blk pos) s w t →
      Starts limit ⟨levels, .stmt (.expr (.call name args kwargs blk pos)), s⟩
        ⟨levels, .place w, t⟩
  | functionStmt {levels : Nat} {s : EvalState} {name : String} {args : List Expr}
      {kwargs : List Entry} {blk : Option Block} {pos : Position} : Kind.ofName? name = none →
      Starts limit ⟨levels, .stmt (.expr (.call name args kwargs blk pos)), s⟩
        ⟨levels, .function name args kwargs blk pos, s⟩
  /-- A bare name calls a function without parameters. -/
  | named {levels : Nat} {s : EvalState} {name : String} {c : Closure} {pos : Position} :
      s.lookup name = none → Fields.get? s.handlers name = some c → c.params = [] →
      Starts limit ⟨levels, .stmt (.expr (.ident name pos)), s⟩ ⟨levels, .invoke c [] pos, s⟩
  | other {levels : Nat} {s : EvalState} {e : Expr} :
      (∀ name args kwargs blk pos, e ≠ .call name args kwargs blk pos) →
      (∀ name pos, e ≠ .ident name pos) →
      Starts limit ⟨levels, .stmt (.expr e), s⟩ ⟨levels, .expr e, s⟩
  | assigned {levels : Nat} {s : EvalState} {name : String} {e : Expr} {pos : Position} :
      Starts limit ⟨levels, .stmt (.assign name e pos), s⟩ ⟨levels, .expr e, s⟩
  | test {levels : Nat} {s : EvalState} {e : Expr} {yes no : List Stmt} {pos : Position} :
      Starts limit ⟨levels, .stmt (.cond e yes no pos), s⟩ ⟨levels, .expr e, s⟩
  | branch {levels : Nat} {s t : EvalState} {e : Expr} {yes no : List Stmt} {v : Value}
      {pos : Position} : Yields (Eval.expr (invoke limit levels) e) s v t →
      Starts limit ⟨levels, .stmt (.cond e yes no pos), s⟩
        ⟨levels, .stmts .nil (if v.isTruthy then yes else no), t.enterBlock⟩
  | first {levels : Nat} {s : EvalState} {last : Value} {st : Stmt} {ss : List Stmt} :
      Starts limit ⟨levels, .stmts last (st :: ss), s⟩ ⟨levels, .stmt st, s⟩
  | next {levels : Nat} {s t : EvalState} {last v : Value} {st : Stmt} {ss : List Stmt} :
      Yields (Eval.stmt (invoke limit levels) st) s v t →
      Starts limit ⟨levels, .stmts last (st :: ss), s⟩ ⟨levels, .stmts v ss, t⟩

/-- The second run is the first one, or is started in the course of it, at any remove. -/
abbrev Within (limit : Nat) : Stage → Stage → Prop := Relation.ReflTransGen (Starts limit)

end Stage

section
variable {limit levels : Nat} {s t : EvalState} {pos : Position}

theorem expr_steady {e : Expr} {v : Value} (run : Yields (expr (invoke limit levels) e) s v t) :
    s.Steady t :=
  have calls := Discipline.invoke_keeps restoring_lawful limit levels
  (Discipline.expr_keeps restoring_lawful calls e s trivial v t run).2.1.steady

theorem exprs_steady {es : List Expr} {vs : List Value}
    (run : Yields (exprs (invoke limit levels) es) s vs t) : s.Steady t :=
  have calls := Discipline.invoke_keeps restoring_lawful limit levels
  (Discipline.exprs_keeps restoring_lawful calls es s trivial vs t run).2.1.steady

theorem stmt_steady {st : Stmt} {v : Value} (run : Yields (stmt (invoke limit levels) st) s v t) :
    s.Steady t :=
  have calls := Discipline.invoke_keeps restoring_lawful limit levels
  (Discipline.stmt_keeps restoring_lawful calls st s trivial v t run).2.1.steady

theorem widgetArgs_steady {kind : Kind} {given given' : WidgetArgs} {es : List Entry}
    (run : Yields (widgetArgs (invoke limit levels) kind given es) s given' t) : s.Steady t := by
  induction es generalizing given s with
  | nil =>
    rw [widgetArgs] at run
    obtain ⟨-, rfl⟩ := yields_pure.1 run
    exact .refl _
  | cons entry es ih =>
    obtain ⟨key, e, pos⟩ := entry
    rw [widgetArgs] at run
    obtain ⟨v, u, ran, rest⟩ := yields_bind.1 run
    obtain ⟨added, u', add, rest⟩ := yields_bind.1 rest
    cases add_yields add
    exact (expr_steady ran).trans (ih rest)

/-- A block closes what it opens also where there would be no room for its widget. -/
theorem children_steady {kind : Kind} {blk : Option Block} {id : String} {ws : List Widget}
    (run : Yields (children (invoke limit levels) kind blk id) s ws t) : s.Steady t := by
  match blk with
  | none =>
    rw [children] at run
    obtain ⟨-, rfl⟩ := yields_pure.1 run
    exact .refl _
  | some (.mk _ body pos) =>
    rw [children] at run
    split at run
    · obtain ⟨v, u, ran, -, rfl⟩ := yields_inside.1 run
      exact (stmts_restored ran).steady.leaveWidget
    · exact absurd run not_yields_fail

theorem widget_steady {kind : Kind} {args : List Expr} {kwargs : List Entry} {blk : Option Block}
    {w : Widget} (run : Yields (widget limit levels kind args kwargs blk pos) s w t) :
    s.Steady t := by
  obtain ⟨-, -, given, u, id, ws, ran, -, below, -⟩ := yields_build.1 run
  exact (widgetArgs_steady ran).trans (children_steady below)

theorem callBuiltin_steady {b : Builtin} {args : List Value} {v : Value}
    (run : Yields (callBuiltin b args pos) s v t) : s.Steady t := by
  obtain ⟨lines, -, rfl⟩ := yields_callBuiltin.1 run
  exact s.steady_log lines

theorem function_steady {name : String} {args : List Expr} {kwargs : List Entry}
    {blk : Option Block} {v : Value}
    (run : Yields (function (invoke limit levels) name kwargs blk
      (exprs (invoke limit levels) args) pos) s v t) : s.Steady t := by
  obtain ⟨-, -, vs, u, ran, ⟨c, -, called⟩ | ⟨b, -, -, called⟩⟩ := function_yields run
  · exact (exprs_steady ran).trans (invoke_restored called).steady
  · exact (exprs_steady ran).trans (callBuiltin_steady called)

theorem place_steady {w : Widget} {v : Value} (run : Yields (place w) s v t) : s.Steady t := by
  rcases yields_place.1 run with ⟨-, -, rfl⟩ | ⟨-, -, u, ran⟩
  · exact .refl _
  · exact attach_steady ran

end

namespace Stage
variable {limit : Nat} {run sub : Stage} {s t : EvalState}

theorem Ends.steady (h : run.Ends limit t) : run.state.Steady t := by
  obtain ⟨levels, piece, s⟩ := run
  have calls := Discipline.invoke_keeps restoring_lawful limit levels
  cases piece with
  | expr e =>
    obtain ⟨v, ran⟩ := h
    exact expr_steady ran
  | exprs es =>
    obtain ⟨vs, ran⟩ := h
    exact exprs_steady ran
  | parts ps =>
    obtain ⟨text, ran⟩ := h
    exact (Discipline.parts_keeps restoring_lawful calls ps s trivial text t ran).2.1.steady
  | entries fields es =>
    obtain ⟨fields', ran⟩ := h
    have kept := Discipline.entries_keeps restoring_lawful calls es fields trivial
    exact (kept s trivial fields' t ran).2.1.steady
  | widgetArgs kind given es =>
    obtain ⟨given', ran⟩ := h
    exact widgetArgs_steady ran
  | block kind blk id =>
    obtain ⟨ws, ran⟩ := h
    exact children_steady ran
  | widget kind args kwargs blk pos =>
    obtain ⟨w, ran⟩ := h
    exact widget_steady ran
  | function name args kwargs blk pos =>
    obtain ⟨v, ran⟩ := h
    exact function_steady ran
  | invoke c args pos =>
    obtain ⟨v, ran⟩ := h
    exact (invoke_restored ran).steady
  | place w =>
    obtain ⟨v, ran⟩ := h
    exact place_steady ran
  | stmt st =>
    obtain ⟨v, ran⟩ := h
    exact stmt_steady ran
  | stmts last ss =>
    obtain ⟨v, ran⟩ := h
    exact (stmts_restored ran).steady

/-- What a run finds open where it is started: what is open around it, and at most one block, one
widget's block or one call more. -/
inductive Opens (s : EvalState) : EvalState → Prop where
  | nothing {t : EvalState} : s.Steady t → Opens s t
  | block {t : EvalState} : s.Steady t → Opens s t.enterBlock
  | widget {t : EvalState} : s.Steady t → Opens s t.enterWidget
  | call {t : EvalState} (frame : Fields Value) : s.Steady t → Opens s (t.enterCall frame)

theorem Starts.opens (h : Starts limit run sub) : Opens run.state sub.state := by
  cases h with
  | parts | items | entries | target | owner | operand | left | item | afterText | hole | entry
  | keyword | keywords | arguments | widgetValue | functionValue | widgetStmt | functionStmt
  | named | other | assigned | test | first => exact .nothing (.refl _)
  | key ran | right ran | afterItem ran | afterHole ran | afterEntry ran =>
    exact .nothing (expr_steady ran)
  | afterKeyword ran add =>
    cases add_yields add
    exact .nothing (expr_steady ran)
  | block _ ran => exact .nothing (widgetArgs_steady ran)
  | called _ ran => exact .nothing (exprs_steady ran)
  | place _ ran => exact .nothing (widget_steady ran)
  | next ran => exact .nothing (stmt_steady ran)
  | branch ran => exact .block (expr_steady ran)
  | inside => exact .widget (.refl _)
  | body => exact .call _ (.refl _)

end Stage
end WidgetScript.Eval
