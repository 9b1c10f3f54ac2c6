import WidgetScript.Proofs.Eval.Run
import WidgetScript.Proofs.Eval.Stages

/-! Where widgets are attached. Each open widget block has its target, above that of the roots, and
so the number of blocks that are open where a widget is attached is the number of widgets that are
above it in the declaration. -/
namespace WidgetScript

/-- The widget is on that level of the rows, where the widgets of the row itself are on the first
and those below a widget one level further down. -/
inductive Widget.OnLevel : List Widget → Nat → Widget → Prop where
  | row {ws : List Widget} {w : Widget} : w ∈ ws → OnLevel ws 1 w
  | under {ws : List Widget} {level : Nat} {w n : Widget} : w ∈ ws → OnLevel w.children level n →
      OnLevel ws (level + 1) n

namespace EvalState
variable {s t : EvalState}

def Aligned (s : EvalState) : Prop := s.targets.length = s.widgetDepth + 1

theorem aligned_start (handlers : Handlers) (ws : List Widget) :
    (start handlers [.roots ws]).Aligned := rfl

theorem Aligned.steady (h : s.Aligned) (steady : s.Steady t) : t.Aligned := by
  rw [Aligned, steady.targets.length_eq, steady.widgetDepth]
  exact h

theorem Aligned.enterBlock (h : s.Aligned) : s.enterBlock.Aligned := h

theorem Aligned.enterWidget (h : s.Aligned) : s.enterWidget.Aligned := congrArg (· + 1) h

theorem Aligned.enterCall (h : s.Aligned) (frame : Fields Value) : (s.enterCall frame).Aligned := h

end EvalState

namespace Eval
open Stage
variable {limit levels : Nat} {origin : Stage} {s t u : EvalState}

theorem Stage.Opens.aligned (h : Opens s t) (aligned : s.Aligned) : t.Aligned := by
  cases h with
  | nothing steady => exact aligned.steady steady
  | block steady => exact (aligned.steady steady).enterBlock
  | widget steady => exact (aligned.steady steady).enterWidget
  | call frame steady => exact (aligned.steady steady).enterCall frame

theorem Stage.Within.aligned {run : Stage} (aligned : origin.state.Aligned)
    (h : Within limit origin run) : run.state.Aligned := by
  induction h with
  | refl => exact aligned
  | tail _ starts ih => exact starts.opens.aligned ih

/-- Each widget of the rows has been attached in the course of the run, those on the first level
with so many widget blocks open, and on each further level with one more. -/
def Leveled (limit : Nat) (origin : Stage) (depth : Nat) (ws : List Widget) : Prop :=
  ∀ level n, Widget.OnLevel ws level n → ∃ run t, Within limit origin run ∧
    run.piece = .place n ∧ run.Ends limit t ∧ t.attached = run.state.attached ++ [n] ∧
    run.state.widgetDepth + 1 = depth + level

namespace Leveled
variable {depth : Nat} {ws more : List Widget}

theorem nil : Leveled limit origin depth [] := by
  intro level n h
  cases h with
  | row mem => exact nomatch mem
  | under mem _ => exact nomatch mem

theorem append (first : Leveled limit origin depth ws) (second : Leveled limit origin depth more) :
    Leveled limit origin depth (ws ++ more) := by
  intro level n h
  cases h with
  | row mem =>
    rcases List.mem_append.1 mem with mem | mem
    · exact first 1 n (.row mem)
    · exact second 1 n (.row mem)
  | under mem on =>
    rcases List.mem_append.1 mem with mem | mem
    · exact first _ n (.under mem on)
    · exact second _ n (.under mem on)

theorem placed {w : Widget} (reached : Within limit origin ⟨levels, .place w, s⟩)
    (ends : Ends limit ⟨levels, .place w, s⟩ t) (attached : t.attached = s.attached ++ [w])
    (below : Leveled limit origin (s.widgetDepth + 1) w.children) :
    Leveled limit origin s.widgetDepth [w] := by
  intro level n h
  cases h with
  | row mem =>
    cases List.mem_singleton.1 mem
    exact ⟨_, t, reached, rfl, ends, attached, rfl⟩
  | @under _ level _ _ mem on =>
    cases List.mem_singleton.1 mem
    obtain ⟨run, u, within, piece, ends, attached, open'⟩ := below level n on
    refine ⟨run, u, within, piece, ends, attached, ?_⟩
    rw [open']
    exact Nat.succ_add_eq_add_succ _ _

end Leveled

structure Raised (limit : Nat) (origin : Stage) (s t : EvalState) : Prop where
  steady : s.Steady t
  attached : ∃ more, t.attached = s.attached ++ more ∧ Leveled limit origin s.widgetDepth more

namespace Raised

theorem of_eq (steady : s.Steady t) (same : t.attached = s.attached) : Raised limit origin s t :=
  ⟨steady, [], by rw [same, List.append_nil], .nil⟩

theorem refl (s : EvalState) : Raised limit origin s s := .of_eq (.refl s) rfl

theorem trans (first : Raised limit origin s t) (second : Raised limit origin t u) :
    Raised limit origin s u := by
  obtain ⟨more, added, leveled⟩ := first.attached
  obtain ⟨more', added', leveled'⟩ := second.attached
  rw [first.steady.widgetDepth] at leveled'
  refine ⟨first.steady.trans second.steady, more ++ more', ?_, leveled.append leveled'⟩
  rw [added', added, List.append_assoc]

theorem leaveBlock (h : Raised limit origin s.enterBlock t) : Raised limit origin s t.leaveBlock :=
  ⟨h.steady.leaveBlock, h.attached⟩

theorem leaveCall {frame : Fields Value} (h : Raised limit origin (s.enterCall frame) t) :
    Raised limit origin s t.leaveCall :=
  ⟨h.steady.leaveCall, h.attached⟩

theorem leaveWidget (h : Raised limit origin s.enterWidget t) :
    Raised limit origin s t.leaveWidget :=
  .of_eq h.steady.leaveWidget h.steady.attached_leaveWidget

/-- A block begins with nothing, so all that it has attached is on the level that it opened. -/
theorem leveled (h : Raised limit origin s.enterWidget t) :
    Leveled limit origin (s.widgetDepth + 1) t.attached := by
  obtain ⟨more, added, leveled⟩ := h.attached
  rw [added]
  exact leveled

end Raised

/-- Wherever in the course of the first run the piece is run, it attaches on the right level. -/
def Raises (limit : Nat) (origin : Stage) (levels : Nat) (piece : Piece) : Prop :=
  ∀ s t, Within limit origin ⟨levels, piece, s⟩ → Ends limit ⟨levels, piece, s⟩ t →
    Raised limit origin s t

theorem place_raised {w : Widget} (reached : Within limit origin ⟨levels, .place w, s⟩)
    (ends : Ends limit ⟨levels, .place w, s⟩ t)
    (below : Leveled limit origin (s.widgetDepth + 1) w.children) : Raised limit origin s t := by
  obtain ⟨v, run⟩ := ends
  rcases yields_place.1 run with ⟨-, -, rfl⟩ | ⟨inside, -, u, ran⟩
  · exact .refl _
  · have attached := (attach_attached ran).resolve_left fun outside => inside outside.1
    exact ⟨attach_steady ran, [w], attached, .placed reached ⟨v, run⟩ attached below⟩

def RaisesCalls (limit : Nat) (origin : Stage) (levels : Nat) : Prop :=
  ∀ c args pos, Raises limit origin levels (.invoke c args pos)

theorem function_raises (calls : RaisesCalls limit origin levels) {name : String} {args : List Expr}
    {kwargs : List Entry} {blk : Option Block} {pos : Position}
    (given : Raises limit origin levels (.exprs args)) :
    Raises limit origin levels (.function name args kwargs blk pos) := by
  rintro s t reached ⟨v, run⟩
  obtain ⟨rfl, rfl, vs, u, ran, ⟨c, found, called⟩ | ⟨b, -, named, called⟩⟩ := function_yields run
  · have known : (Fields.get? s.handlers name).isSome := by rw [found]; rfl
    have first := given s u (reached.tail (.arguments (.inl known))) ⟨vs, ran⟩
    exact first.trans (calls c vs pos u t (reached.tail (.called found ran)) ⟨v, called⟩)
  · have known : (Builtin.ofName? name).isSome := by rw [named]; rfl
    have first := given s u (reached.tail (.arguments (.inr known))) ⟨vs, ran⟩
    obtain ⟨lines, -, rfl⟩ := yields_callBuiltin.1 called
    exact first.trans (.of_eq (u.steady_log lines) rfl)

theorem widget_raised {kind : Kind} {args : List Expr} {kwargs : List Entry} {blk : Option Block}
    {pos : Position} {w : Widget}
    (given : Raises limit origin levels (.widgetArgs kind ⟨none, []⟩ kwargs))
    (below : ∀ id s ws t, Within limit origin ⟨levels, .block kind blk id, s⟩ →
      Yields (children (invoke limit levels) kind blk id) s ws t →
      Raised limit origin s t ∧ Leveled limit origin (s.widgetDepth + 1) ws)
    (reached : Within limit origin ⟨levels, .widget kind args kwargs blk pos, s⟩)
    (run : Yields (widget limit levels kind args kwargs blk pos) s w t) :
    Raised limit origin s t ∧ Leveled limit origin (s.widgetDepth + 1) w.children := by
  obtain ⟨room, rfl, args, u, id, ws, ran, named, inner, rfl⟩ := yields_build.1 run
  have first := given s u (reached.tail (.keywords room)) ⟨args, ran⟩
  obtain ⟨second, leveled⟩ := below id u ws t (reached.tail (.block room ran named)) inner
  rw [first.steady.widgetDepth] at leveled
  exact ⟨first.trans second, leveled⟩

-- By induction on the tree: each part is run from where the parts before it have led, and what it
-- attaches comes behind what they have attached.
mutual

theorem expr_raises (calls : RaisesCalls limit origin levels) :
    (e : Expr) → Raises limit origin levels (.expr e)
  | .literal value _ => by
    rintro s t reached ⟨v, run⟩
    rw [expr] at run
    obtain ⟨-, rfl⟩ := yields_pure.1 run
    exact .refl _
  | .interpolated ps _ => by
    rintro s t reached ⟨v, run⟩
    rw [expr] at run
    obtain ⟨text, u, ran, rest⟩ := yields_bind.1 run
    obtain ⟨-, rfl⟩ := yields_pure.1 rest
    exact parts_raises calls ps s t (reached.tail .parts) ⟨text, ran⟩
  | .ident name _ => by
    rintro s t reached ⟨v, run⟩
    rw [expr] at run
    have run := yields_get_bind.1 run
    obtain ⟨-, rfl⟩ := yields_pure.1 run
    exact .refl _
  | .symbol name _ => by
    rintro s t reached ⟨v, run⟩
    rw [expr] at run
    obtain ⟨-, rfl⟩ := yields_pure.1 run
    exact .refl _
  | .list items _ => by
    rintro s t reached ⟨v, run⟩
    rw [expr] at run
    obtain ⟨vs, u, ran, rest⟩ := yields_bind.1 run
    obtain ⟨-, rfl⟩ := yields_pure.1 rest
    exact exprs_raises calls items s t (reached.tail .items) ⟨vs, ran⟩
  | .map es _ => by
    rintro s t reached ⟨v, run⟩
    rw [expr] at run
    obtain ⟨fields, u, ran, rest⟩ := yields_bind.1 run
    obtain ⟨-, rfl⟩ := yields_pure.1 rest
    exact entries_raises calls es [] s t (reached.tail .entries) ⟨fields, ran⟩
  | .call name args kwargs blk pos => by
    rintro s t reached ⟨v, run⟩
    rw [expr] at run
    split at run
    next kind widget =>
      obtain ⟨w, u, ran, rest⟩ := yields_bind.1 run
      obtain ⟨-, rfl⟩ := yields_pure.1 rest
      exact (widget_raised (widgetArgs_raises calls kind kwargs _) (block_raised calls kind blk)
        (reached.tail (.widgetValue widget)) ran).1
    next other =>
      exact function_raises calls (exprs_raises calls args) s t
        (reached.tail (.functionValue other))
        ⟨v, run⟩
  | .index target key pos => by
    rintro s t reached ⟨v, run⟩
    rw [expr] at run
    obtain ⟨v, u, ran, rest⟩ := yields_bind.1 run
    obtain ⟨k, u', ran', rest⟩ := yields_bind.1 rest
    obtain ⟨-, rfl⟩ := yields_liftType.1 rest
    have first := expr_raises calls target s u (reached.tail .target) ⟨v, ran⟩
    exact first.trans (expr_raises calls key u t (reached.tail (.key ran)) ⟨k, ran'⟩)
  | .field target name pos => by
    rintro s t reached ⟨v, run⟩
    rw [expr] at run
    obtain ⟨v, u, ran, rest⟩ := yields_bind.1 run
    obtain ⟨-, rfl⟩ := yields_liftType.1 rest
    exact expr_raises calls target s t (reached.tail .owner) ⟨v, ran⟩
  | .unary op operand pos => by
    rintro s t reached ⟨v, run⟩
    rw [expr] at run
    obtain ⟨v, u, ran, rest⟩ := yields_bind.1 run
    obtain ⟨-, rfl⟩ := yields_liftType.1 rest
    exact expr_raises calls operand s t (reached.tail .operand) ⟨v, ran⟩
  | .binary op lhs rhs pos => by
    rintro s t reached ⟨v, run⟩
    rw [expr] at run
    obtain ⟨l, u, ran, rest⟩ := yields_bind.1 run
    have first := expr_raises calls lhs s u (reached.tail .left) ⟨l, ran⟩
    have second (both : op = .and → l.isTruthy = true) (either : op = .or → l.isTruthy = false)
        {r : Value} {u' : EvalState} (ran' : Yields (expr (invoke limit levels) rhs) u r u') :=
      first.trans (expr_raises calls rhs u u' (reached.tail (.right ran both either)) ⟨r, ran'⟩)
    split at rest
    · split at rest
      next truthy => exact second (fun _ => truthy) nofun rest
      next =>
        obtain ⟨-, rfl⟩ := yields_pure.1 rest
        exact first
    · split at rest
      next =>
        obtain ⟨-, rfl⟩ := yields_pure.1 rest
        exact first
      next falsy => exact second nofun (fun _ => Bool.eq_false_iff.2 falsy) rest
    next notAnd notOr =>
      obtain ⟨r, u', ran', rest⟩ := yields_bind.1 rest
      obtain ⟨-, rfl⟩ := yields_liftType.1 rest
      exact second (fun h => absurd h notAnd) (fun h => absurd h notOr) ran'

theorem exprs_raises (calls : RaisesCalls limit origin levels) :
    (es : List Expr) → Raises limit origin levels (.exprs es)
  | [] => by
    rintro s t reached ⟨vs, run⟩
    rw [exprs] at run
    obtain ⟨-, rfl⟩ := yields_pure.1 run
    exact .refl _
  | e :: es => by
    rintro s t reached ⟨vs, run⟩
    rw [exprs] at run
    obtain ⟨v, u, ran, rest⟩ := yields_bind.1 run
    obtain ⟨vs, u', ran', rest⟩ := yields_bind.1 rest
    obtain ⟨-, rfl⟩ := yields_pure.1 rest
    have first := expr_raises calls e s u (reached.tail .item) ⟨v, ran⟩
    exact first.trans (exprs_raises calls es u t (reached.tail (.afterItem ran)) ⟨vs, ran'⟩)

theorem parts_raises (calls : RaisesCalls limit origin levels) :
    (ps : List Part) → Raises limit origin levels (.parts ps)
  | [] => by
    rintro s t reached ⟨text, run⟩
    rw [parts] at run
    obtain ⟨-, rfl⟩ := yields_pure.1 run
    exact .refl _
  | .text text :: ps => by
    rintro s t reached ⟨text, run⟩
    rw [parts] at run
    obtain ⟨rest, u, ran, done⟩ := yields_bind.1 run
    obtain ⟨-, rfl⟩ := yields_pure.1 done
    exact parts_raises calls ps s t (reached.tail .afterText) ⟨rest, ran⟩
  | .hole e :: ps => by
    rintro s t reached ⟨text, run⟩
    rw [parts] at run
    obtain ⟨v, u, ran, rest⟩ := yields_bind.1 run
    obtain ⟨text, u', ran', rest⟩ := yields_bind.1 rest
    obtain ⟨-, rfl⟩ := yields_pure.1 rest
    have first := expr_raises calls e s u (reached.tail .hole) ⟨v, ran⟩
    exact first.trans (parts_raises calls ps u t (reached.tail (.afterHole ran)) ⟨text, ran'⟩)

theorem entries_raises (calls : RaisesCalls limit origin levels) :
    (es : List Entry) → ∀ fields, Raises limit origin levels (.entries fields es)
  | [], fields => by
    rintro s t reached ⟨fields', run⟩
    rw [entries] at run
    obtain ⟨-, rfl⟩ := yields_pure.1 run
    exact .refl _
  | .mk key e _ :: es, fields => by
    rintro s t reached ⟨fields', run⟩
    rw [entries] at run
    obtain ⟨v, u, ran, rest⟩ := yields_bind.1 run
    have first := expr_raises calls e s u (reached.tail .entry) ⟨v, ran⟩
    exact first.trans
      (entries_raises calls es _ u t (reached.tail (.afterEntry ran)) ⟨fields', rest⟩)

theorem widgetArgs_raises (calls : RaisesCalls limit origin levels) (kind : Kind) :
    (es : List Entry) → ∀ given, Raises limit origin levels (.widgetArgs kind given es)
  | [], given => by
    rintro s t reached ⟨given', run⟩
    rw [widgetArgs] at run
    obtain ⟨-, rfl⟩ := yields_pure.1 run
    exact .refl _
  | .mk key e pos :: es, given => by
    rintro s t reached ⟨given', run⟩
    rw [widgetArgs] at run
    obtain ⟨v, u, ran, rest⟩ := yields_bind.1 run
    obtain ⟨added, u', add, rest⟩ := yields_bind.1 rest
    cases add_yields add
    have first := expr_raises calls e s u (reached.tail .keyword) ⟨v, ran⟩
    have later := widgetArgs_raises calls kind es added u t
    exact first.trans (later (reached.tail (.afterKeyword ran add)) ⟨given', rest⟩)

theorem block_raised (calls : RaisesCalls limit origin levels) (kind : Kind) :
    (blk : Option Block) → ∀ id s ws t, Within limit origin ⟨levels, .block kind blk id, s⟩ →
    Yields (children (invoke limit levels) kind blk id) s ws t →
    Raised limit origin s t ∧ Leveled limit origin (s.widgetDepth + 1) ws
  | none, id, s, ws, t, _, run => by
    rw [children] at run
    obtain ⟨rfl, rfl⟩ := yields_pure.1 run
    exact ⟨.refl _, .nil⟩
  | some (.mk _ body pos), id, s, ws, t, reached, run => by
    rw [children] at run
    split at run
    next container =>
      obtain ⟨v, u, ran, rfl, rfl⟩ := yields_inside.1 run
      have raised := stmts_raises calls body .nil s.enterWidget u (reached.tail (.inside container))
        ⟨v, ran⟩
      exact ⟨raised.leaveWidget, raised.leveled⟩
    next => exact absurd run not_yields_fail

theorem stmt_raises (calls : RaisesCalls limit origin levels) :
    (st : Stmt) → Raises limit origin levels (.stmt st)
  | .expr e => by
    rintro s t reached ⟨v, run⟩
    cases e with
    | call name args kwargs blk pos =>
      rw [stmt] at run
      split at run
      next kind widget =>
        obtain ⟨w, u, ran, placed⟩ := yields_bind.1 run
        obtain ⟨built, below⟩ := widget_raised (widgetArgs_raises calls kind kwargs _)
          (block_raised calls kind blk) (reached.tail (.widgetStmt widget)) ran
        rw [← built.steady.widgetDepth] at below
        exact built.trans (place_raised (reached.tail (.place widget ran)) ⟨v, placed⟩ below)
      next other =>
        exact function_raises calls (exprs_raises calls args) s t
          (reached.tail (.functionStmt other))
          ⟨v, run⟩
    | ident name pos =>
      rw [stmt] at run
      have run := yields_get_bind.1 run
      split at run
      next =>
        obtain ⟨-, rfl⟩ := yields_pure.1 run
        exact .refl _
      next c unbound found =>
        split at run
        next empty =>
          have plain := reached.tail (.named unbound found (List.isEmpty_iff.1 empty))
          exact calls c [] pos s t plain ⟨v, run⟩
        next =>
          obtain ⟨-, rfl⟩ := yields_pure.1 run
          exact .refl _
      next =>
        obtain ⟨-, rfl⟩ := yields_pure.1 run
        exact .refl _
    | literal | interpolated | symbol | list | map | index | field | unary | binary =>
      rw [stmt] at run
      · exact expr_raises calls _ s t (reached.tail (.other nofun nofun)) ⟨v, run⟩
      all_goals simp
  | .assign name e _ => by
    rintro s t reached ⟨v, run⟩
    rw [stmt] at run
    obtain ⟨v, u, ran, rest⟩ := yields_bind.1 run
    rw [yields_modify_bind] at rest
    obtain ⟨-, rfl⟩ := yields_pure.1 rest
    have first := expr_raises calls e s u (reached.tail .assigned) ⟨v, ran⟩
    exact first.trans (.of_eq (u.steady_assign name v) (u.attached_assign name v))
  | .define name params body pos => by
    rintro s t reached ⟨v, run⟩
    rw [stmt] at run
    obtain ⟨-, -, -, -, rfl⟩ := define_yields run
    exact .of_eq (s.steady_define _) rfl
  | .cond test yes no _ => by
    rintro s t reached ⟨v, run⟩
    rw [stmt] at run
    obtain ⟨v', u, ran, rest⟩ := yields_bind.1 run
    have first := expr_raises calls test s u (reached.tail .test) ⟨v', ran⟩
    have branch := reached.tail (.branch ran)
    cases truthy : v'.isTruthy with
    | true =>
      rw [truthy] at rest branch
      obtain ⟨u', ran', rfl⟩ := yields_between.1 rest
      exact first.trans (stmts_raises calls yes .nil _ u' branch ⟨v, ran'⟩).leaveBlock
    | false =>
      rw [truthy] at rest branch
      obtain ⟨u', ran', rfl⟩ := yields_between.1 rest
      exact first.trans (stmts_raises calls no .nil _ u' branch ⟨v, ran'⟩).leaveBlock

theorem stmts_raises (calls : RaisesCalls limit origin levels) :
    (ss : List Stmt) → ∀ last, Raises limit origin levels (.stmts last ss)
  | [], last => by
    rintro s t reached ⟨v, run⟩
    rw [stmts] at run
    obtain ⟨-, rfl⟩ := yields_pure.1 run
    exact .refl _
  | st :: ss, last => by
    rintro s t reached ⟨v, run⟩
    rw [stmts] at run
    obtain ⟨w, u, ran, rest⟩ := yields_bind.1 run
    have first := stmt_raises calls st s u (reached.tail .first) ⟨w, ran⟩
    exact first.trans (stmts_raises calls ss w u t (reached.tail (.next ran)) ⟨v, rest⟩)

end

/-- By induction on the levels of calls that are left. -/
theorem invoke_raises (limit levels : Nat) (origin : Stage) (c : Closure) (args : List Value)
    (pos : Position) : Raises limit origin levels (.invoke c args pos) := by
  induction levels generalizing c args pos with
  | zero =>
    rintro s t reached ⟨v, run⟩
    obtain ⟨-, below, -, none, -⟩ := yields_invoke.1 run
    exact nomatch none
  | succ levels ih =>
    rintro s t reached ⟨v, run⟩
    obtain ⟨arity, below, u, level, ran, rfl⟩ := yields_invoke.1 run
    cases level
    exact (stmts_raises ih c.body .nil _ u (reached.tail (.body arity)) ⟨v, ran⟩).leaveCall

def Stage.whole (limit : Nat) (script : Script) : Stage :=
  ⟨limit, .stmts .nil script.body, .start [] [.roots []]⟩

/-- Every run that ends well has restored what was open, from whatever state it is run, and has
only added to the newest target. During the evaluation of a script there is in every state one
target more than there are open widget blocks, whether the evaluation comes to its end or not. So
what is attached below a widget is one level further down than the widget, and what is attached in
a state with so many blocks open is on the next level of the declaration. -/
theorem runs_restore_and_align (limit : Nat) :
    (∀ run t, Ends limit run t → run.state.Steady t) ∧
    ∀ script,
      (∀ run, Within limit (whole limit script) run →
        run.state.Aligned ∧ ∀ t, run.Ends limit t → t.Aligned) ∧
      (∀ levels kind args kwargs blk pos s w t,
        Within limit (whole limit script) ⟨levels, .widget kind args kwargs blk pos, s⟩ →
        Yields (widget limit levels kind args kwargs blk pos) s w t →
        Leveled limit (whole limit script) (s.widgetDepth + 1) w.children) ∧
      ∀ ev, (script.evaluate limit).1 = .ok ev →
        Leveled limit (whole limit script) 0 ev.forest.roots := by
  refine ⟨fun run t ends => ends.steady, fun script => ⟨?_, ?_, ?_⟩⟩
  · intro run within
    have aligned : run.state.Aligned := within.aligned (EvalState.aligned_start [] [])
    exact ⟨aligned, fun t ends => aligned.steady ends.steady⟩
  · intro levels kind args kwargs blk pos s w t within run
    have calls := invoke_raises limit levels (whole limit script)
    exact (widget_raised (widgetArgs_raises calls kind kwargs _) (block_raised calls kind blk)
      within run).2
  · intro ev evaluated
    obtain ⟨v, s, run, rfl, -⟩ := Script.evaluate_eq_ok evaluated
    have calls := invoke_raises limit limit (whole limit script)
    have raised := stmts_raises calls script.body .nil _ s .refl ⟨v, run⟩
    obtain ⟨more, added, leveled⟩ := raised.attached
    have roots : s.attached = more := added
    rw [roots]
    exact leveled

/-- A text in a column in a window, which a function attaches: two blocks are open then. -/
theorem runs_restore_and_align_text :
    let label : Widget := ⟨.text, "label", [], [], ⟨1, 13⟩⟩
    let column : Widget := ⟨.column, "side", [], [label], ⟨4, 3⟩⟩
    let named (id : String) : List Entry := [.mk "id" (.literal (.str id) ⟨1, 22⟩) ⟨1, 18⟩]
    let call (name : String) (kwargs : List Entry) (blk : Option Block) (pos : Position) : Stmt :=
      .expr (.call name [] kwargs blk pos)
    let side : Stmt := call "column" (named "side")
      (some (.mk .braces [call "title" [] none ⟨5, 5⟩] ⟨4, 20⟩)) ⟨4, 3⟩
    let script : Script := ⟨[.define "title" [] [call "text" (named "label") none ⟨1, 13⟩] ⟨1, 1⟩,
      call "window" (named "main") (some (.mk .braces [side] ⟨3, 20⟩)) ⟨3, 1⟩]⟩
    ∃ ev run, (script.evaluate 64).1 = .ok ev ∧
      ev.forest.roots = [⟨.window, "main", [], [column], ⟨3, 1⟩⟩] ∧
      Within 64 (whole 64 script) run ∧ run.piece = .place label ∧
      run.state.widgetDepth = 2 ∧ run.state.targets.length = 3 := by
  intro label column named call side script
  obtain ⟨-, during⟩ := runs_restore_and_align 64
  obtain ⟨aligned, -, evaluated⟩ := during script
  obtain ⟨ev, done, roots⟩ : ∃ ev, (script.evaluate 64).1 = .ok ev ∧
      ev.forest.roots = [⟨.window, "main", [], [column], ⟨3, 1⟩⟩] := ⟨_, rfl, rfl⟩
  have level : Widget.OnLevel ev.forest.roots 3 label := by
    rw [roots]
    exact .under List.mem_cons_self (.under List.mem_cons_self (.row List.mem_cons_self))
  obtain ⟨run, t, within, piece, -, -, opened⟩ := evaluated ev done 3 label level
  have depth : run.state.widgetDepth = 2 := by
    rw [Nat.zero_add] at opened
    exact Nat.succ.inj opened
  have line := (aligned run within).1
  rw [EvalState.Aligned, depth] at line
  exact ⟨ev, run, done, roots, within, piece, depth, line⟩

end Eval
end WidgetScript
