import WidgetScript.Eval.Script
import WidgetScript.Proofs.Forest
import WidgetScript.Proofs.Outcome

/-! When a piece of a script ends well. A failure is never caught, so a run that ends well
has ended well in each of its steps, and each step is known by what it yields. -/
namespace WidgetScript.Eval

variable {α β : Type} {s s' : EvalState} {pos : Position}

/-- Run from `s` the computation gives `a` and leaves the state `s'`. -/
def Yields (m : Eval α) (s : EvalState) (a : α) (s' : EvalState) : Prop :=
  @Eq (Except SemanticError α × EvalState) (m s) (.ok a, s')

theorem yields_pure {a b : α} : Yields (pure a) s b s' ↔ b = a ∧ s' = s := by
  change ((.ok a, s) : Except SemanticError α × EvalState) = (.ok b, s') ↔ _
  simp only [Prod.mk.injEq, Except.ok.injEq, eq_comm]

theorem yields_bind {m : Eval α} {f : α → Eval β} {b : β} :
    Yields (m >>= f) s b s' ↔ ∃ a t, Yields m s a t ∧ Yields (f a) t b s' := by
  change (match (m s : Except SemanticError α × EvalState) with
      | (r, t) => (ExceptT.bindCont f r t : Except SemanticError β × EvalState)) = (.ok b, s') ↔ _
  unfold Yields
  rcases (m s : Except SemanticError α × EvalState) with ⟨_ | a, t⟩
  next e =>
    constructor
    · intro h
      exact nomatch congrArg Prod.fst h
    · rintro ⟨a, t, h, _⟩
      exact nomatch congrArg Prod.fst h
  next =>
    constructor
    · intro h
      exact ⟨a, t, rfl, h⟩
    · rintro ⟨a', t', h, h'⟩
      cases h
      exact h'

theorem yields_discard {m : Eval α} {u : PUnit} :
    Yields (discard m) s u s' ↔ ∃ a, Yields m s a s' := by
  have step : (discard m : Eval PUnit) = m >>= fun _ => pure ⟨⟩ := rfl
  rw [step, yields_bind]
  constructor
  · rintro ⟨a, t, run, h⟩
    obtain ⟨_, rfl⟩ := yields_pure.1 h
    exact ⟨a, run⟩
  · rintro ⟨a, run⟩
    exact ⟨a, s', run, yields_pure.2 ⟨rfl, rfl⟩⟩

theorem not_yields_fail {fault : SemanticFault} {a : α} : ¬ Yields (fail fault pos) s a s' := by
  intro h
  exact nomatch congrArg Prod.fst h

theorem yields_get {t : EvalState} : Yields get s t s' ↔ t = s ∧ s' = s := by
  change ((.ok s, s) : Except SemanticError EvalState × EvalState) = (.ok t, s') ↔ _
  simp only [Prod.mk.injEq, Except.ok.injEq, eq_comm]

theorem yields_set {t : EvalState} {u : Unit} : Yields (set t) s u s' ↔ s' = t := by
  change ((.ok (), t) : Except SemanticError Unit × EvalState) = (.ok u, s') ↔ _
  simp only [Prod.mk.injEq, true_and, eq_comm]

theorem yields_modify {f : EvalState → EvalState} {u : Unit} :
    Yields (modify f) s u s' ↔ s' = f s := by
  change ((.ok (), f s) : Except SemanticError Unit × EvalState) = (.ok u, s') ↔ _
  simp only [Prod.mk.injEq, true_and, eq_comm]

theorem yields_get_bind {f : EvalState → Eval β} {b : β} :
    Yields (get >>= f) s b s' ↔ Yields (f s) s b s' := by
  rw [yields_bind]
  constructor
  · rintro ⟨a, t, got, run⟩
    obtain ⟨rfl, rfl⟩ := yields_get.1 got
    exact run
  · intro run
    exact ⟨s, s, yields_get.2 ⟨rfl, rfl⟩, run⟩

theorem yields_set_bind {t : EvalState} {f : PUnit → Eval β} {b : β} :
    Yields (set t >>= f) s b s' ↔ Yields (f ⟨⟩) t b s' := by
  rw [yields_bind]
  constructor
  · rintro ⟨a, t', changed, run⟩
    cases yields_set.1 changed
    exact run
  · intro run
    exact ⟨⟨⟩, t, yields_set.2 rfl, run⟩

theorem yields_modify_bind {g : EvalState → EvalState} {f : PUnit → Eval β} {b : β} :
    Yields (modify g >>= f) s b s' ↔ Yields (f ⟨⟩) (g s) b s' := by
  rw [yields_bind]
  constructor
  · rintro ⟨a, t, changed, run⟩
    cases yields_modify.1 changed
    exact run
  · intro run
    exact ⟨⟨⟩, g s, yields_modify.2 rfl, run⟩

theorem yields_lift {r : Except SemanticFault α} {a : α} :
    Yields (lift pos r) s a s' ↔ r = .ok a ∧ s' = s := by
  cases r with
  | ok b =>
    rw [lift, yields_pure, Except.ok.injEq, eq_comm]
  | error fault =>
    simp only [lift, not_yields_fail, reduceCtorEq, false_and]

theorem yields_liftType {r : Except TypeFault α} {a : α} :
    Yields (liftType pos r) s a s' ↔ r = .ok a ∧ s' = s := by
  cases r with
  | ok b =>
    rw [liftType, yields_pure, Except.ok.injEq, eq_comm]
  | error fault =>
    simp only [liftType, not_yields_fail, reduceCtorEq, false_and]

theorem yields_inside {block : Eval Value} {ws : List Widget} :
    Yields (inside block) s ws s' ↔
      ∃ v t, Yields block s.enterWidget v t ∧ ws = t.attached ∧ s' = t.leaveWidget := by
  unfold inside
  rw [yields_modify_bind, yields_bind]
  simp only [yields_get_bind, yields_set_bind, yields_pure, yields_discard]
  constructor
  · rintro ⟨_, t, ⟨v, ran⟩, rfl, rfl⟩
    exact ⟨v, t, ran, rfl, rfl⟩
  · rintro ⟨v, t, ran, rfl, rfl⟩
    exact ⟨⟨⟩, t, ⟨v, ran⟩, rfl, rfl⟩

theorem yields_between {enter leave : EvalState → EvalState} {body : Eval α} {a : α} :
    Yields (do
        modify enter
        let result ← body
        modify leave
        pure result) s a s' ↔
      ∃ t, Yields body (enter s) a t ∧ s' = leave t := by
  rw [yields_modify_bind, yields_bind]
  simp only [yields_modify_bind, yields_pure]
  constructor
  · rintro ⟨_, t, ran, rfl, rfl⟩
    exact ⟨t, ran, rfl⟩
  · rintro ⟨t, ran, rfl⟩
    exact ⟨a, t, ran, rfl, rfl⟩

theorem yields_invoke {limit levels : Nat} {c : Closure} {args : List Value} {v : Value} :
    Yields (invoke limit levels c args pos) s v s' ↔
      args.length = c.params.length ∧ ∃ below t, levels = below + 1 ∧
        Yields (stmts (invoke limit below) .nil c.body)
          (s.enterCall (Fields.extend c.captured (c.params.zip args))) v t ∧
        s' = t.leaveCall := by
  unfold invoke
  by_cases arity : args.length = c.params.length
  · rw [if_neg (not_not_intro arity)]
    cases levels with
    | zero => simp [not_yields_fail]
    | succ below =>
      dsimp only
      rw [yields_between]
      simp [arity]
  · rw [if_pos arity]
    simp [arity, not_yields_fail]

theorem yields_build {kind : Kind} {positional : List Expr} {given : Eval WidgetArgs}
    {children : String → Eval (List Widget)} {w : Widget} :
    Yields (build kind positional given children pos) s w s' ↔
      s.widgetDepth < Widget.maxDepth ∧ positional = [] ∧ ∃ args t id ws,
        Yields given s args t ∧ args.id = some id ∧ Yields (children id) t ws s' ∧
        w = ⟨kind, id, args.props, ws, pos⟩ := by
  unfold build
  rw [yields_get_bind]
  by_cases room : s.widgetDepth < Widget.maxDepth
  · rw [if_neg (Nat.not_le.2 room)]
    cases positional with
    | cons e es => simp [not_yields_fail]
    | nil =>
      simp only [List.isEmpty_nil, Bool.not_true, Bool.false_eq_true, if_false, yields_bind, room,
        true_and]
      constructor
      · rintro ⟨args, t, ran, rest⟩
        cases named : args.id with
        | none =>
          rw [named] at rest
          exact absurd rest not_yields_fail
        | some id =>
          rw [named] at rest
          obtain ⟨ws, u, below, rest⟩ := yields_bind.1 rest
          obtain ⟨rfl, rfl⟩ := yields_pure.1 rest
          exact ⟨args, t, id, ws, ran, named, below, rfl⟩
      · rintro ⟨args, t, id, ws, ran, named, below, rfl⟩
        refine ⟨args, t, ran, ?_⟩
        rw [named]
        exact yields_bind.2 ⟨ws, s', below, yields_pure.2 ⟨rfl, rfl⟩⟩
  · rw [if_pos (Nat.not_lt.1 room)]
    simp [not_yields_fail, room]

theorem yields_place {w : Widget} {v : Value} :
    Yields (place w) s v s' ↔
      s.targets = [] ∧ v = .node w ∧ s' = s ∨
      s.targets ≠ [] ∧ v = .nil ∧ ∃ u, Yields (attach w) s u s' := by
  unfold place
  rw [yields_get_bind]
  by_cases outside : s.targets = []
  · simp [outside, yields_pure]
  · rw [if_neg (by simpa using outside), yields_bind]
    simp only [yields_pure, outside, false_and, false_or, not_false_eq_true, true_and, ne_eq]
    constructor
    · rintro ⟨u, t, ran, rfl, rfl⟩
      exact ⟨rfl, u, ran⟩
    · rintro ⟨rfl, u, ran⟩
      exact ⟨u, s', ran, rfl, rfl⟩

theorem yields_callBuiltin {b : Builtin} {args : List Value} {v : Value} :
    Yields (callBuiltin b args pos) s v s' ↔
      ∃ lines, b.call args = .ok (v, lines) ∧ s' = { s with log := s.log ++ lines } := by
  unfold callBuiltin
  simp only [yields_bind, yields_lift, yields_modify, yields_pure]
  constructor
  · rintro ⟨⟨w, lines⟩, t, ⟨called, rfl⟩, _, u, rfl, rfl, rfl⟩
    exact ⟨lines, called, rfl⟩
  · rintro ⟨lines, called, rfl⟩
    exact ⟨(v, lines), s, ⟨called, rfl⟩, ⟨⟩, _, rfl, rfl, rfl⟩

theorem add_yields {given given' : WidgetArgs} {kind : Kind} {key : String} {v : Value}
    (run : Yields (given.add kind key v pos) s given' s') : s' = s := by
  unfold WidgetArgs.add at run
  split at run
  · split at run
    · split at run
      · exact absurd run not_yields_fail
      · exact (yields_pure.1 run).2
    · exact absurd run not_yields_fail
  · split at run
    · exact (yields_pure.1 run).2
    · exact (yields_pure.1 run).2
    · exact absurd run not_yields_fail

theorem define_yields {name : String} {params : List String} {body : List Stmt} {v : Value}
    (run : Yields (define name params body pos) s v s') :
    s.callDepth = 0 ∧ s.blockDepth = 0 ∧ Kind.ofName? name = none ∧ v = .nil ∧
      s' = s.define ⟨name, params, body, s.frame, pos⟩ := by
  have run := yields_get_bind.1 run
  split at run
  · exact absurd run not_yields_fail
  next outer =>
    split at run
    · exact absurd run not_yields_fail
    next free =>
      rw [yields_set_bind, yields_pure] at run
      rw [not_or, Nat.not_lt, Nat.le_zero, Nat.not_lt, Nat.le_zero] at outer
      rw [Bool.not_eq_true, Option.isSome_eq_false_iff, Option.isNone_iff_eq_none] at free
      exact ⟨outer.1, outer.2, free, run⟩

theorem function_yields {call : Closure → List Value → Position → Eval Value} {name : String}
    {kwargs : List Entry} {blk : Option Block} {args : Eval (List Value)} {v : Value}
    (run : Yields (function call name kwargs blk args pos) s v s') :
    kwargs = [] ∧ blk = none ∧ ∃ vs t, Yields args s vs t ∧
      ((∃ c, Fields.get? s.handlers name = some c ∧ Yields (call c vs pos) t v s') ∨
        ∃ b, Fields.get? s.handlers name = none ∧ Builtin.ofName? name = some b ∧
          Yields (callBuiltin b vs pos) t v s') := by
  have run := yields_get_bind.1 run
  dsimp only at run
  split at run
  · exact absurd run not_yields_fail
  · split at run
    · exact absurd run not_yields_fail
    next keywords =>
      split at run
      · exact absurd run not_yields_fail
      next block =>
        refine ⟨by simpa using keywords, by simpa using block, ?_⟩
        obtain ⟨vs, t, ran, rest⟩ := yields_bind.1 run
        refine ⟨vs, t, ran, ?_⟩
        split at rest
        next c found => exact .inl ⟨c, found, rest⟩
        next b unknown named => exact .inr ⟨b, unknown, named, rest⟩
        next => exact absurd rest not_yields_fail

end WidgetScript.Eval

namespace WidgetScript

theorem Script.evaluate_eq_ok {script : Script} {depth : Nat} {ev : Evaluation}
    (h : (script.evaluate depth).1 = .ok ev) :
    ∃ v s, Eval.Yields (Eval.stmts (Eval.invoke depth depth) .nil script.body)
        (.start [] [.roots []]) v s ∧
      ev = ⟨⟨s.attached⟩, s.handlers⟩ ∧ ev.forest.Distinct := by
  unfold Script.evaluate at h
  dsimp only at h
  split at h
  · exact nomatch h
  next v s run =>
    obtain ⟨forest, unique, rfl⟩ := map_eq_ok.1 h
    unfold Forest.unique at unique
    split at unique
    · exact nomatch unique
    next none =>
      cases unique
      exact ⟨v, s, run, rfl, Forest.firstDuplicate?_eq_none_iff.1 none⟩

end WidgetScript
