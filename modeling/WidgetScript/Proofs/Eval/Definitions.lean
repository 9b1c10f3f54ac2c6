import WidgetScript.Proofs.Eval.Restore
import WidgetScript.Proofs.Eval.Run
import WidgetScript.Proofs.Fields
import Mathlib.Data.List.Induction

/-! Where functions come from. Blocks and calls run nested, where nothing can be defined, and so
only a definition that is itself a statement of the script adds to the functions. -/
namespace WidgetScript

namespace Eval
variable {α β : Type} {limit levels : Nat} {pos : Position}

/-- A run that ends well leaves the functions as they are. -/
def Quiet (m : Eval α) : Prop := ∀ s a t, Yields m s a t → t.handlers = s.handlers

namespace Quiet

theorem pure (a : α) : Quiet (pure a) := by
  intro s b t run
  obtain ⟨-, rfl⟩ := yields_pure.1 run
  rfl

theorem fail {fault : SemanticFault} : Quiet (fail fault pos : Eval α) :=
  fun _ _ _ run => absurd run not_yields_fail

theorem bind {m : Eval α} {k : α → Eval β} (first : Quiet m) (next : ∀ a, Quiet (k a)) :
    Quiet (m >>= k) := by
  intro s b u run
  obtain ⟨a, t, ran, rest⟩ := yields_bind.1 run
  exact (next a t b u rest).trans (first s a t ran)

theorem get {k : EvalState → Eval β} (next : ∀ s, Quiet (k s)) :
    Quiet (MonadState.get >>= k) :=
  fun s b t run => next s s b t (yields_get_bind.1 run)

theorem liftType (r : Except TypeFault α) : Quiet (liftType pos r) := by
  intro s a t run
  obtain ⟨-, rfl⟩ := yields_liftType.1 run
  rfl

end Quiet

theorem add_quiet (given : WidgetArgs) (kind : Kind) (key : String) (v : Value) :
    Quiet (given.add kind key v pos) := by
  intro s given' t run
  rw [add_yields run]

theorem callBuiltin_quiet (b : Builtin) (args : List Value) : Quiet (callBuiltin b args pos) := by
  intro s v t run
  obtain ⟨lines, -, rfl⟩ := yields_callBuiltin.1 run
  rfl

theorem place_quiet (w : Widget) : Quiet (place w) := by
  refine .get fun s => ?_
  split
  · exact .pure _
  · exact .bind (fun s u t run => attach_handlers run) fun _ => .pure _

theorem build_quiet {kind : Kind} {positional : List Expr} {given : Eval WidgetArgs}
    {children : String → Eval (List Widget)} (args : Quiet given)
    (below : ∀ id, Quiet (children id)) : Quiet (build kind positional given children pos) := by
  refine .get fun s => ?_
  split
  · exact .fail
  · split
    · exact .fail
    · refine args.bind fun given => ?_
      split
      · exact .fail
      next id _ => exact (below id).bind fun ws => .pure _

theorem inside_quiet (body : List Stmt) :
    Quiet (inside (stmts (invoke limit levels) .nil body)) := by
  intro s ws u run
  obtain ⟨v, t, ran, -, rfl⟩ := yields_inside.1 run
  exact (stmts_restored ran).handlers s.nested_enterWidget

theorem block_quiet (body : List Stmt) :
    Quiet (do
      modify EvalState.enterBlock
      let result ← stmts (invoke limit levels) .nil body
      modify EvalState.leaveBlock
      pure result) := by
  intro s v u run
  obtain ⟨t, ran, rfl⟩ := yields_between.1 run
  exact (stmts_restored ran).handlers s.nested_enterBlock

theorem children_quiet (kind : Kind) (blk : Option Block) (id : String) :
    Quiet (children (invoke limit levels) kind blk id) := by
  match blk with
  | none =>
    rw [children]
    exact .pure _
  | some (.mk _ body pos) =>
    rw [children]
    split
    · exact inside_quiet body
    · exact .fail

theorem invoke_quiet (c : Closure) (args : List Value) :
    Quiet (invoke limit levels c args pos) := by
  intro s v u run
  obtain ⟨-, below, t, -, ran, rfl⟩ := yields_invoke.1 run
  exact (stmts_restored ran).handlers (s.nested_enterCall _)

theorem function_quiet (name : String) (kwargs : List Entry) (blk : Option Block)
    {args : Eval (List Value)} (given : Quiet args) :
    Quiet (function (invoke limit levels) name kwargs blk args pos) := by
  refine .get fun s => ?_
  dsimp only
  split
  · exact .fail
  · split
    · exact .fail
    · split
      · exact .fail
      · refine given.bind fun vs => ?_
        split
        next c _ => exact invoke_quiet c vs
        next b _ _ => exact callBuiltin_quiet b vs
        next => exact .fail

mutual

theorem expr_quiet : (e : Expr) → Quiet (expr (invoke limit levels) e)
  | .literal value _ => by
    rw [expr]
    exact .pure _
  | .interpolated ps _ => by
    rw [expr]
    exact (parts_quiet ps).bind fun text => .pure _
  | .ident name _ => by
    rw [expr]
    exact .get fun s => .pure _
  | .symbol name _ => by
    rw [expr]
    exact .pure _
  | .list items _ => by
    rw [expr]
    exact (exprs_quiet items).bind fun vs => .pure _
  | .map es _ => by
    rw [expr]
    exact (entries_quiet es []).bind fun fields => .pure _
  | .call name args kwargs blk pos => by
    rw [expr]
    split
    next kind _ =>
      exact (build_quiet (widgetArgs_quiet kind kwargs _)
        (children_quiet kind blk)).bind fun w => .pure _
    next => exact function_quiet name kwargs blk (exprs_quiet args)
  | .index target key pos => by
    rw [expr]
    exact (expr_quiet target).bind fun t => (expr_quiet key).bind fun k => .liftType _
  | .field target name pos => by
    rw [expr]
    exact (expr_quiet target).bind fun t => .liftType _
  | .unary op operand pos => by
    rw [expr]
    exact (expr_quiet operand).bind fun v => .liftType _
  | .binary op lhs rhs pos => by
    rw [expr]
    refine (expr_quiet lhs).bind fun l => ?_
    split
    · split
      · exact expr_quiet rhs
      · exact .pure _
    · split
      · exact .pure _
      · exact expr_quiet rhs
    · exact (expr_quiet rhs).bind fun r => .liftType _

theorem exprs_quiet : (es : List Expr) → Quiet (exprs (invoke limit levels) es)
  | [] => by
    rw [exprs]
    exact .pure _
  | e :: es => by
    rw [exprs]
    exact (expr_quiet e).bind fun v => (exprs_quiet es).bind fun vs => .pure _

theorem parts_quiet : (ps : List Part) → Quiet (parts (invoke limit levels) ps)
  | [] => by
    rw [parts]
    exact .pure _
  | .text text :: ps => by
    rw [parts]
    exact (parts_quiet ps).bind fun rest => .pure _
  | .hole e :: ps => by
    rw [parts]
    exact (expr_quiet e).bind fun v => (parts_quiet ps).bind fun rest => .pure _

theorem entries_quiet : (es : List Entry) → ∀ fields : Fields Value,
    Quiet (entries (invoke limit levels) fields es)
  | [], fields => by
    rw [entries]
    exact .pure _
  | .mk key e _ :: es, fields => by
    rw [entries]
    exact (expr_quiet e).bind fun v => entries_quiet es _

theorem widgetArgs_quiet (kind : Kind) : (es : List Entry) → ∀ given : WidgetArgs,
    Quiet (widgetArgs (invoke limit levels) kind given es)
  | [], given => by
    rw [widgetArgs]
    exact .pure _
  | .mk key e pos :: es, given => by
    rw [widgetArgs]
    refine (expr_quiet e).bind fun v => (add_quiet given kind key v).bind fun given => ?_
    exact widgetArgs_quiet kind es given

end

theorem stmt_quiet {st : Stmt} (other : ∀ name params body pos, st ≠ .define name params body pos) :
    Quiet (stmt (invoke limit levels) st) := by
  cases st with
  | expr e =>
    cases e with
    | call name args kwargs blk pos =>
      rw [stmt]
      split
      next kind _ =>
        exact (build_quiet (widgetArgs_quiet kind kwargs _)
          (children_quiet kind blk)).bind fun w => place_quiet w
      next => exact function_quiet name kwargs blk (exprs_quiet args)
    | ident name pos =>
      rw [stmt]
      refine .get fun s => ?_
      split
      · exact .pure _
      next c _ _ =>
        split
        · exact invoke_quiet c []
        · exact .pure _
      · exact .pure _
    | literal | interpolated | symbol | list | map | index | field | unary | binary =>
      rw [stmt]
      · exact expr_quiet _
      all_goals simp
  | assign name e _ =>
    rw [stmt]
    refine (expr_quiet e).bind fun v => .bind (fun s u t run => ?_) fun _ => .pure _
    cases yields_modify.1 run
    exact s.handlers_assign name v
  | define name params body pos => exact absurd rfl (other name params body pos)
  | cond test yes no _ =>
    rw [stmt]
    refine (expr_quiet test).bind fun v => ?_
    cases v.isTruthy with
    | true => exact block_quiet yes
    | false => exact block_quiet no

theorem yields_stmts_snoc {call : Closure → List Value → Position → Eval Value} {s u : EvalState}
    {ss : List Stmt} {st : Stmt} {last v : Value} :
    Yields (stmts call last (ss ++ [st])) s v u ↔
      ∃ w t, Yields (stmts call last ss) s w t ∧ Yields (stmt call st) t v u := by
  induction ss generalizing s last with
  | nil =>
    rw [List.nil_append, stmts, stmts, yields_bind]
    constructor
    · rintro ⟨w, t, ran, rest⟩
      rw [stmts] at rest
      obtain ⟨rfl, rfl⟩ := yields_pure.1 rest
      exact ⟨last, s, yields_pure.2 ⟨rfl, rfl⟩, ran⟩
    · rintro ⟨w, t, ran, rest⟩
      obtain ⟨rfl, rfl⟩ := yields_pure.1 ran
      exact ⟨v, u, rest, by rw [stmts]; exact yields_pure.2 ⟨rfl, rfl⟩⟩
  | cons first ss ih =>
    rw [List.cons_append, stmts, stmts, yields_bind]
    simp only [yields_bind, ih]
    constructor
    · rintro ⟨w, t, ran, w', t', rest, last⟩
      exact ⟨w', t', ⟨w, t, ran, rest⟩, last⟩
    · rintro ⟨w', t', ⟨w, t, ran, rest⟩, last⟩
      exact ⟨w, t, ran, w', t', rest, last⟩

theorem frames_eq {ss : List Stmt} {handlers : Handlers} {targets : List Target} {v : Value}
    {s : EvalState}
    (run : Yields (stmts (invoke limit levels) .nil ss) (.start handlers targets) v s) :
    s.frames = [s.frame] := by
  have height : s.frames.length = 1 := (stmts_restored run).steady.height
  obtain ⟨frame, eq⟩ := List.length_eq_one_iff.1 height
  rw [EvalState.frame, eq]
  rfl

/-- The function is what the last definition of its name among these statements defines, with the
script's variables as they were when the definition was reached. -/
def Defines (depth : Nat) (body : List Stmt) (c : Closure) : Prop :=
  ∃ before after v s, body = before ++ .define c.name c.params c.body c.pos :: after ∧
    (∀ params body pos, .define c.name params body pos ∉ after) ∧
    Yields (stmts (invoke depth depth) .nil before) (.start [] [.roots []]) v s ∧
    s.frames = [c.captured]

theorem defines_snoc_iff {depth : Nat} {body : List Stmt} {st : Stmt} {c : Closure} {v : Value}
    {s : EvalState}
    (run : Yields (stmts (invoke depth depth) .nil body) (.start [] [.roots []]) v s) :
    Defines depth (body ++ [st]) c ↔
      (st = .define c.name c.params c.body c.pos ∧ c.captured = s.frame) ∨
      ((∀ params block pos, st ≠ .define c.name params block pos) ∧ Defines depth body c) := by
  constructor
  · rintro ⟨before, after, w, t, split, last, ran, frame⟩
    rcases after.eq_nil_or_concat with rfl | ⟨after, st', rfl⟩
    · obtain ⟨rfl, same⟩ := List.append_inj' split rfl
      cases same
      cases run.symm.trans ran
      exact .inl ⟨rfl, by rw [EvalState.frame, frame]; rfl⟩
    · rw [List.concat_eq_append, ← List.cons_append, ← List.append_assoc] at split
      obtain ⟨rfl, same⟩ := List.append_inj' split rfl
      cases same
      simp only [List.concat_eq_append, List.mem_append, List.mem_singleton, not_or] at last
      exact .inr ⟨fun params block pos => Ne.symm (last params block pos).2,
        before, after, w, t, rfl, fun params block pos => (last params block pos).1, ran, frame⟩
  · rintro (⟨rfl, captured⟩ | ⟨other, before, after, w, t, rfl, last, ran, frame⟩)
    · exact ⟨body, [], v, s, rfl, by simp, run, by rw [captured]; exact frames_eq run⟩
    · refine ⟨before, after ++ [st], w, t, by simp, fun params block pos => ?_, ran, frame⟩
      simpa using ⟨last params block pos, (other params block pos).symm⟩

/-- A table with one entry for each name that is defined, and that is its last definition. No
widget's name is among them. -/
structure Tabulates (depth : Nat) (body : List Stmt) (handlers : Handlers) : Prop where
  nodup : (Fields.keys handlers).Nodup
  mem_keys : ∀ name, name ∈ Fields.keys handlers ↔
    ∃ params block pos, .define name params block pos ∈ body
  free : ∀ name ∈ Fields.keys handlers, Kind.ofName? name = none
  get? : ∀ name c, Fields.get? handlers name = some c ↔ c.name = name ∧ Defines depth body c

namespace Tabulates
variable {depth : Nat} {body : List Stmt} {v : Value} {s : EvalState}

theorem define {name : String} {params : List String} {block : List Stmt}
    (table : Tabulates depth body s.handlers) (free : Kind.ofName? name = none)
    (run : Yields (stmts (invoke depth depth) .nil body) (.start [] [.roots []]) v s) :
    Tabulates depth (body ++ [.define name params block pos])
      (s.define ⟨name, params, block, s.frame, pos⟩).handlers := by
  change Tabulates depth _ (Fields.insert name ⟨name, params, block, s.frame, pos⟩ s.handlers)
  refine ⟨Fields.nodup_insert table.nodup, fun key => ?_, fun key mem => ?_, fun key c => ?_⟩
  · rw [Fields.mem_keys_insert, table.mem_keys]
    constructor
    · rintro (rfl | ⟨params', block', pos', mem⟩)
      · exact ⟨params, block, pos, by simp⟩
      · exact ⟨params', block', pos', by simp [mem]⟩
    · rintro ⟨params', block', pos', mem⟩
      rcases List.mem_append.1 mem with mem | mem
      · exact .inr ⟨params', block', pos', mem⟩
      · cases List.mem_singleton.1 mem
        exact .inl rfl
  · rcases Fields.mem_keys_insert.1 mem with rfl | mem
    · exact free
    · exact table.free key mem
  · rw [Fields.get?_insert, defines_snoc_iff run]
    split
    next same =>
      subst same
      constructor
      · rintro ⟨⟩
        exact ⟨rfl, .inl ⟨rfl, rfl⟩⟩
      · rintro ⟨named, ⟨same, captured⟩ | ⟨other, -⟩⟩
        · cases c
          cases same
          cases captured
          rfl
        · exact absurd (named ▸ rfl) (other params block pos)
    next differ =>
      rw [table.get?]
      have other (named : c.name = key) (params' block' pos') :
          Stmt.define name params block pos ≠ .define c.name params' block' pos' := by
        rintro ⟨⟩
        exact differ named
      constructor
      · rintro ⟨named, defines⟩
        exact ⟨named, .inr ⟨other named, defines⟩⟩
      · rintro ⟨named, ⟨same, -⟩ | ⟨-, defines⟩⟩
        · exact absurd same (other named _ _ _)
        · exact ⟨named, defines⟩

theorem other {handlers : Handlers} {st : Stmt} (table : Tabulates depth body handlers)
    (other : ∀ name params block pos, st ≠ .define name params block pos)
    (run : Yields (stmts (invoke depth depth) .nil body) (.start [] [.roots []]) v s) :
    Tabulates depth (body ++ [st]) handlers := by
  refine ⟨table.nodup, fun name => ?_, table.free, fun name c => ?_⟩
  · have absent (params block pos) : Stmt.define name params block pos ≠ st :=
      (other name params block pos).symm
    simp [table.mem_keys, absent]
  · rw [table.get?, defines_snoc_iff run]
    simp [other]

end Tabulates

/-- By induction on the statements in the order in which they are run. -/
theorem tabulates_of_yields {depth : Nat} {body : List Stmt} {v : Value} {s : EvalState}
    (run : Yields (stmts (invoke depth depth) .nil body) (.start [] [.roots []]) v s) :
    Tabulates depth body s.handlers := by
  induction body using List.reverseRecOn generalizing v s with
  | nil =>
    rw [stmts] at run
    obtain ⟨-, rfl⟩ := yields_pure.1 run
    refine ⟨List.nodup_nil, ?_, ?_, ?_⟩
    all_goals simp [EvalState.start, Defines]
  | append_singleton body st ih =>
    obtain ⟨w, t, ran, last⟩ := yields_stmts_snoc.1 run
    by_cases defines : ∃ name params block pos, st = .define name params block pos
    · obtain ⟨name, params, block, pos, rfl⟩ := defines
      rw [stmt] at last
      obtain ⟨-, -, free, -, rfl⟩ := define_yields last
      exact (ih ran).define free ran
    · simp only [not_exists] at defines
      rw [stmt_quiet defines _ _ _ last]
      exact (ih ran).other defines ran

/-- If a script ends well, its functions are its own definitions, for each name the last one with
the variables as they were there. Nothing else has touched them on the way: no expression, no
call, no other statement and no body of a block. -/
theorem handlers_tabulated {script : Script} {depth : Nat} {ev : Evaluation}
    (h : (script.evaluate depth).1 = .ok ev) :
    Tabulates depth script.body ev.handlers ∧
    ∀ levels, (∀ e, Quiet (expr (invoke depth levels) e)) ∧
      (∀ c args pos, Quiet (invoke depth levels c args pos)) ∧
      (∀ st, (∀ name params body pos, st ≠ .define name params body pos) →
        Quiet (stmt (invoke depth levels) st)) ∧
      ∀ s v t last body, s.Nested → Yields (stmts (invoke depth levels) last body) s v t →
        t.handlers = s.handlers := by
  obtain ⟨v, s, run, rfl, -⟩ := Script.evaluate_eq_ok h
  refine ⟨tabulates_of_yields run, fun levels => ⟨expr_quiet, ?_, ?_, ?_⟩⟩
  · exact fun c args pos => invoke_quiet c args
  · exact fun st => stmt_quiet
  · exact fun s v t last body nested ran => (stmts_restored ran).handlers nested

/-- The second of two definitions of a name counts. It was reached after the assignment, and has
captured what is assigned. -/
theorem handlers_tabulated_redefined :
    let script : Script := ⟨[.define "label" [] [] ⟨1, 1⟩,
      .assign "size" (.literal (.str "large") ⟨2, 8⟩) ⟨2, 1⟩,
      .define "label" ["id"] [.expr (.ident "size" ⟨3, 15⟩)] ⟨3, 1⟩,
      .assign "size" (.literal (.str "small") ⟨4, 8⟩) ⟨4, 1⟩]⟩
    let handlers : Handlers := [("label", ⟨"label", ["id"], [.expr (.ident "size" ⟨3, 15⟩)],
      [("size", .str "large")], ⟨3, 1⟩⟩)]
    (script.evaluate 64).1 = .ok ⟨⟨[]⟩, handlers⟩ ∧ Tabulates 64 script.body handlers := by
  intro script handlers
  have evaluated : (script.evaluate 64).1 = .ok ⟨⟨[]⟩, handlers⟩ := by rfl
  exact ⟨evaluated, (handlers_tabulated evaluated).1⟩

end Eval
end WidgetScript
