import WidgetScript.Proofs.Eval.Restore

/-! Two runs side by side, from states that agree but for the frames below the newest. Those are
out of reach, so both runs go the same way and leave them alone. The runs may also have different
limits on calls: then they go the same way unless the first one is stopped by its limit. -/
namespace WidgetScript

def EvalState.over (s : EvalState) (frame : Fields Value) (below : List (Fields Value)) :
    EvalState :=
  { s with frames := frame :: below }

def SemanticFault.OfLimit (fault : SemanticFault) : Prop :=
  ∃ name limit, fault = .recursionLimit name limit

def StoppedByLimit {α : Type} (r : Except SemanticError α) : Prop :=
  ∃ e, r = .error e ∧ e.fault.OfLimit

namespace Eval
variable {α β : Type} {excused : SemanticFault → Prop} {pos : Position}

/-- Both outcomes are the same, and after a success the frames are related in this way. Where the
first one is a failure that is excused, the second may be any. -/
inductive Alike (excused : SemanticFault → Prop)
    (frames : List (Fields Value) → List (Fields Value) → Prop) :
    Except SemanticError α × EvalState → Except SemanticError α × EvalState → Prop where
  | ok (a : α) (s : EvalState) {fs fs' : List (Fields Value)} :
      frames fs fs' →
      Alike excused frames (.ok a, { s with frames := fs }) (.ok a, { s with frames := fs' })
  | error (e : SemanticError) (s : EvalState) (fs fs' : List (Fields Value)) :
      Alike excused frames (.error e, { s with frames := fs }) (.error e, { s with frames := fs' })
  | excused {e : SemanticError} (s : EvalState) (r : Except SemanticError α × EvalState) :
      excused e.fault → Alike excused frames (.error e, s) r

theorem Alike.mono {frames frames' : List (Fields Value) → List (Fields Value) → Prop}
    {r r' : Except SemanticError α × EvalState} (h : Alike excused frames r r')
    (weaker : ∀ fs fs', frames fs fs' → frames' fs fs') : Alike excused frames' r r' := by
  cases h with
  | ok a s kept => exact .ok a s (weaker _ _ kept)
  | error e s fs fs' => exact .error e s fs fs'
  | excused s _ h => exact .excused s _ h

theorem Alike.bind {frames frames' : List (Fields Value) → List (Fields Value) → Prop}
    {m m' : Eval α} {k k' : α → Eval β} {s s' : EvalState}
    (first : Alike excused frames (m s) (m' s'))
    (next : ∀ (a : α) (t : EvalState) (fs fs' : List (Fields Value)), frames fs fs' →
      Alike excused frames' (k a { t with frames := fs }) (k' a { t with frames := fs' })) :
    Alike excused frames' ((m >>= k) s) ((m' >>= k') s') := by
  let cont (k : α → Eval β) (r : Except SemanticError α × EvalState) :
      Except SemanticError β × EvalState := ExceptT.bindCont k r.1 r.2
  change Alike excused frames' (cont k (m s)) (cont k' (m' s'))
  generalize (m s : Except SemanticError α × EvalState) = r at first
  generalize (m' s' : Except SemanticError α × EvalState) = r' at first
  cases first with
  | ok a t kept => exact next a t _ _ kept
  | error e t fs fs' => exact .error e t fs fs'
  | excused t r' h => exact .excused t _ h

def SameOver (below below' fs fs' : List (Fields Value)) : Prop :=
  ∃ frame, fs = frame :: below ∧ fs' = frame :: below'

/-- Over whatever frames they start, the two computations have like outcomes and leave those
frames as they are. -/
def Mirrors (excused : SemanticFault → Prop) (m m' : Eval α) : Prop :=
  ∀ (s : EvalState) (frame : Fields Value) (below below' : List (Fields Value)),
    Alike excused (SameOver below below') (m (s.over frame below)) (m' (s.over frame below'))

namespace Mirrors
variable {m m' : Eval α}

theorem pure (a : α) : Mirrors excused (pure a) (pure a) :=
  fun s frame _ _ => .ok a s ⟨frame, rfl, rfl⟩

theorem fail {fault : SemanticFault} :
    Mirrors excused (fail fault pos : Eval α) (Eval.fail fault pos) :=
  fun s _ _ _ => .error ⟨fault, pos⟩ s _ _

theorem bind {k k' : α → Eval β} (first : Mirrors excused m m')
    (next : ∀ a, Mirrors excused (k a) (k' a)) : Mirrors excused (m >>= k) (m' >>= k') := by
  intro s frame below below'
  refine (first s frame below below').bind fun a t fs fs' same => ?_
  obtain ⟨frame', rfl, rfl⟩ := same
  exact next a t frame' below below'

theorem get {k k' : EvalState → Eval β}
    (next : ∀ (s : EvalState) frame below below',
      Mirrors excused (k (s.over frame below)) (k' (s.over frame below'))) :
    Mirrors excused (MonadState.get >>= k) (MonadState.get >>= k') :=
  fun s frame below below' => next s frame below below' s frame below below'

theorem modify {step : EvalState → EvalState}
    (h : ∀ (s : EvalState) frame, ∃ t frame',
      ∀ below, step (s.over frame below) = EvalState.over t frame' below) :
    Mirrors excused (MonadState.modifyGet fun s => ((), step s) : Eval Unit)
      (MonadState.modifyGet fun s => ((), step s)) := by
  intro s frame below below'
  obtain ⟨t, frame', eq⟩ := h s frame
  change Alike excused (SameOver below below') (.ok (), step (s.over frame below))
    (.ok (), step (s.over frame below'))
  rw [eq, eq]
  exact .ok () t ⟨frame', rfl, rfl⟩

theorem of_alike (h : ∀ (s : EvalState) (fs fs' : List (Fields Value)),
      Alike excused (fun gs gs' => gs = fs ∧ gs' = fs') (m { s with frames := fs })
        (m' { s with frames := fs' })) : Mirrors excused m m' :=
  fun s frame below below' => (h s (frame :: below) (frame :: below')).mono
    fun _ _ ⟨kept, kept'⟩ => ⟨frame, kept, kept'⟩

theorem lift (r : Except SemanticFault α) :
    Mirrors excused (Eval.lift pos r) (Eval.lift pos r) := by
  cases r with
  | ok a => exact .pure a
  | error fault => exact .fail

theorem liftType (r : Except TypeFault α) :
    Mirrors excused (Eval.liftType pos r) (Eval.liftType pos r) := by
  cases r with
  | ok a => exact .pure a
  | error fault => exact .fail

end Mirrors

theorem add_mirrors (given : WidgetArgs) (kind : Kind) (key : String) (v : Value) :
    Mirrors excused (given.add kind key v pos) (given.add kind key v pos) := by
  unfold WidgetArgs.add
  split
  · split
    · split
      · exact .fail
      · exact .pure _
    · exact .fail
  · split
    · exact .pure _
    · exact .pure _
    · exact .fail

theorem build_mirrors {kind : Kind} {positional : List Expr} {given given' : Eval WidgetArgs}
    {children children' : String → Eval (List Widget)} (args : Mirrors excused given given')
    (below : ∀ id, Mirrors excused (children id) (children' id)) :
    Mirrors excused (build kind positional given children pos)
      (build kind positional given' children' pos) := by
  unfold build
  refine .get fun s _ _ _ => ?_
  dsimp only [EvalState.over]
  split
  · exact .fail
  · split
    · exact .fail
    · refine args.bind fun given => ?_
      split
      · exact .fail
      next id _ => exact (below id).bind fun ws => .pure _

theorem inside_mirrors {block block' : Eval Value} (body : Mirrors excused block block') :
    Mirrors excused (inside block) (inside block') := by
  unfold inside
  refine .bind (.modify fun s frame => ⟨s.enterWidget, frame, fun _ => rfl⟩) fun _ => ?_
  refine .bind (body.bind fun _ => .pure _) fun _ => ?_
  exact fun s frame _ _ => .ok s.attached s.leaveWidget ⟨frame, rfl, rfl⟩

theorem block_mirrors {body body' : Eval Value} (h : Mirrors excused body body') :
    Mirrors excused
      (do
        modify EvalState.enterBlock
        let result ← body
        modify EvalState.leaveBlock
        pure result)
      (do
        modify EvalState.enterBlock
        let result ← body'
        modify EvalState.leaveBlock
        pure result) := by
  refine .bind (.modify fun s frame => ⟨s.enterBlock, frame, fun _ => rfl⟩) fun _ => ?_
  refine h.bind fun result => ?_
  exact .bind (.modify fun s frame => ⟨s.leaveBlock, frame, fun _ => rfl⟩) fun _ => .pure _

theorem attach_mirrors (w : Widget) : Mirrors excused (attach w) (attach w) := by
  intro s frame below below'
  have put (ts : List Target) : Alike excused (SameOver below below')
      ((set { s.over frame below with targets := ts } : Eval Unit) (s.over frame below))
      ((set { s.over frame below' with targets := ts } : Eval Unit) (s.over frame below')) :=
    .ok () { s with targets := ts } ⟨frame, rfl, rfl⟩
  obtain ⟨handlers, frames, targets, blocks, widgets, calls, log⟩ := s
  cases targets with
  | nil => exact .ok () _ ⟨frame, rfl, rfl⟩
  | cons target targets =>
    by_cases window : w.kind = .window
    · cases target with
      | roots ws =>
        simp only [attach, window, if_true]
        exact put _
      | children ws =>
        simp only [attach, window, if_true]
        exact .error _ _ _ _
    · cases target with
      | roots ws =>
        simp only [attach, window, if_false]
        exact .error _ _ _ _
      | children ws =>
        simp only [attach, window, if_false]
        exact put _

theorem place_mirrors (w : Widget) : Mirrors excused (place w) (place w) := by
  unfold place
  refine .get fun s _ _ _ => ?_
  dsimp only [EvalState.over]
  split
  · exact .pure _
  · exact (attach_mirrors w).bind fun _ => .pure _

theorem define_mirrors (name : String) (params : List String) (body : List Stmt) :
    Mirrors excused (define name params body pos) (define name params body pos) := by
  intro s frame below below'
  let c : Closure := ⟨name, params, body, frame, pos⟩
  change Alike excused (SameOver below below')
    ((if 0 < s.callDepth ∨ 0 < s.blockDepth then fail (.nestedDef name) pos
      else if (Kind.ofName? name).isSome then fail (.type (.widgetKindRedefined name)) pos
      else do set ((s.over frame below).define c); pure Value.nil : Eval Value)
      (s.over frame below))
    ((if 0 < s.callDepth ∨ 0 < s.blockDepth then fail (.nestedDef name) pos
      else if (Kind.ofName? name).isSome then fail (.type (.widgetKindRedefined name)) pos
      else do set ((s.over frame below').define c); pure Value.nil : Eval Value)
      (s.over frame below'))
  split
  · exact .error _ s _ _
  · split
    · exact .error _ s _ _
    · exact Alike.ok Value.nil (s.define c) ⟨frame, rfl, rfl⟩

theorem callBuiltin_mirrors (b : Builtin) (args : List Value) :
    Mirrors excused (callBuiltin b args pos) (callBuiltin b args pos) := by
  unfold callBuiltin
  refine .bind (.lift (b.call args)) fun result => ?_
  refine .bind (.modify fun s frame => ?_) fun _ => .pure _
  exact ⟨{ s with log := s.log ++ result.2 }, frame, fun _ => rfl⟩

def runBody (call : Closure → List Value → Position → Eval Value) (body : List Stmt)
    (entered : Fields Value) : Eval Value := do
  modify (·.enterCall entered)
  let v ← stmts call .nil body
  modify EvalState.leaveCall
  pure v

theorem invoke_succ (limit levels : Nat) (c : Closure) (args : List Value) (pos : Position) :
    invoke limit (levels + 1) c args pos =
      if args.length ≠ c.params.length then
        fail (.arity c.name c.params.length args.length) pos
      else
        runBody (invoke limit levels) c.body (Fields.extend c.captured (c.params.zip args)) := rfl

def MirrorsCalls (excused : SemanticFault → Prop)
    (call call' : Closure → List Value → Position → Eval Value) : Prop :=
  ∀ c args pos, Mirrors excused (call c args pos) (call' c args pos)

section

variable {call call' : Closure → List Value → Position → Eval Value}

theorem function_mirrors (calls : MirrorsCalls excused call call') (name : String)
    (kwargs : List Entry) (blk : Option Block) {args args' : Eval (List Value)}
    (given : Mirrors excused args args') :
    Mirrors excused (function call name kwargs blk args pos)
    (function call' name kwargs blk args' pos) := by
  unfold function
  refine .get fun s _ _ _ => ?_
  dsimp only [EvalState.over]
  split
  · exact .fail
  · split
    · exact .fail
    · split
      · exact .fail
      · refine given.bind fun vs => ?_
        split
        next c _ => exact calls c vs pos
        next b _ _ => exact callBuiltin_mirrors b vs
        next => exact .fail

mutual

theorem expr_mirrors (calls : MirrorsCalls excused call call') :
    (e : Expr) → Mirrors excused (expr call e) (expr call' e)
  | .literal value _ => by
    rw [expr, expr]
    exact .pure _
  | .interpolated ps _ => by
    rw [expr, expr]
    exact (parts_mirrors calls ps).bind fun text => .pure _
  | .ident name _ => by
    rw [expr, expr]
    exact .get fun s frame _ _ => .pure ((Fields.get? frame name).getD (.symbol name))
  | .symbol name _ => by
    rw [expr, expr]
    exact .pure _
  | .list items _ => by
    rw [expr, expr]
    exact (exprs_mirrors calls items).bind fun vs => .pure _
  | .map es _ => by
    rw [expr, expr]
    exact (entries_mirrors calls es []).bind fun fields => .pure _
  | .call name args kwargs blk pos => by
    rw [expr, expr]
    split
    next kind _ =>
      exact (build_mirrors (widgetArgs_mirrors calls kind kwargs _)
        (children_mirrors calls kind blk)).bind fun w => .pure _
    next => exact function_mirrors calls name kwargs blk (exprs_mirrors calls args)
  | .index target key pos => by
    rw [expr, expr]
    refine (expr_mirrors calls target).bind fun t => (expr_mirrors calls key).bind fun k => ?_
    exact .liftType (Value.index t k)
  | .field target name pos => by
    rw [expr, expr]
    exact (expr_mirrors calls target).bind fun t => .liftType (Value.field t name)
  | .unary op operand pos => by
    rw [expr, expr]
    exact (expr_mirrors calls operand).bind fun v => .liftType (Value.unary op v)
  | .binary op lhs rhs pos => by
    rw [expr, expr]
    refine (expr_mirrors calls lhs).bind fun l => ?_
    split
    · split
      · exact expr_mirrors calls rhs
      · exact .pure _
    · split
      · exact .pure _
      · exact expr_mirrors calls rhs
    · exact (expr_mirrors calls rhs).bind fun r => .liftType (Value.binary _ l r)

theorem exprs_mirrors (calls : MirrorsCalls excused call call') :
    (es : List Expr) → Mirrors excused (exprs call es) (exprs call' es)
  | [] => by
    rw [exprs, exprs]
    exact .pure _
  | e :: es => by
    rw [exprs, exprs]
    exact (expr_mirrors calls e).bind fun v => (exprs_mirrors calls es).bind fun vs => .pure _

theorem parts_mirrors (calls : MirrorsCalls excused call call') :
    (ps : List Part) → Mirrors excused (parts call ps) (parts call' ps)
  | [] => by
    rw [parts, parts]
    exact .pure _
  | .text text :: ps => by
    rw [parts, parts]
    exact (parts_mirrors calls ps).bind fun rest => .pure _
  | .hole e :: ps => by
    rw [parts, parts]
    exact (expr_mirrors calls e).bind fun v => (parts_mirrors calls ps).bind fun rest => .pure _

theorem entries_mirrors (calls : MirrorsCalls excused call call') :
    (es : List Entry) → ∀ fields : Fields Value,
    Mirrors excused (entries call fields es) (entries call' fields es)
  | [], fields => by
    rw [entries, entries]
    exact .pure _
  | .mk key e _ :: es, fields => by
    rw [entries, entries]
    exact (expr_mirrors calls e).bind fun v => entries_mirrors calls es _

theorem widgetArgs_mirrors (calls : MirrorsCalls excused call call') (kind : Kind) :
    (es : List Entry) → ∀ given : WidgetArgs,
    Mirrors excused (widgetArgs call kind given es) (widgetArgs call' kind given es)
  | [], given => by
    rw [widgetArgs, widgetArgs]
    exact .pure _
  | .mk key e pos :: es, given => by
    rw [widgetArgs, widgetArgs]
    refine (expr_mirrors calls e).bind fun v => (add_mirrors given kind key v).bind fun given => ?_
    exact widgetArgs_mirrors calls kind es given

theorem children_mirrors (calls : MirrorsCalls excused call call') (kind : Kind) :
    (blk : Option Block) → ∀ id,
    Mirrors excused (children call kind blk id) (children call' kind blk id)
  | none, id => by
    rw [children, children]
    exact .pure _
  | some (.mk _ body pos), id => by
    rw [children, children]
    split
    · exact inside_mirrors (stmts_mirrors calls body .nil)
    · exact .fail

theorem stmt_mirrors (calls : MirrorsCalls excused call call') :
    (st : Stmt) → Mirrors excused (stmt call st) (stmt call' st)
  | .expr e => by
    cases e with
    | call name args kwargs blk pos =>
      rw [stmt, stmt]
      split
      next kind _ =>
        exact (build_mirrors (widgetArgs_mirrors calls kind kwargs _)
          (children_mirrors calls kind blk)).bind fun w => place_mirrors w
      next => exact function_mirrors calls name kwargs blk (exprs_mirrors calls args)
    | ident name pos =>
      rw [stmt, stmt]
      refine .get fun s frame _ _ => ?_
      change Mirrors excused
        (match Fields.get? frame name, Fields.get? s.handlers name with
          | some v, _ => pure v
          | none, some c => if c.params.isEmpty then call c [] pos else pure (.symbol name)
          | none, none => pure (.symbol name))
        (match Fields.get? frame name, Fields.get? s.handlers name with
          | some v, _ => pure v
          | none, some c => if c.params.isEmpty then call' c [] pos else pure (.symbol name)
          | none, none => pure (.symbol name))
      split
      · exact .pure _
      next c _ _ =>
        split
        · exact calls c [] pos
        · exact .pure _
      · exact .pure _
    | literal | interpolated | symbol | list | map | index | field | unary | binary =>
      rw [stmt, stmt]
      · exact expr_mirrors calls _
      all_goals simp
  | .assign name e _ => by
    rw [stmt, stmt]
    refine (expr_mirrors calls e).bind fun v => .bind (.modify fun s frame => ?_) fun _ => .pure _
    exact ⟨s, Fields.insert name v frame, fun _ => rfl⟩
  | .define name params body pos => by
    rw [stmt, stmt]
    exact define_mirrors name params body
  | .cond test yes no _ => by
    rw [stmt, stmt]
    refine (expr_mirrors calls test).bind fun v => ?_
    cases v.isTruthy with
    | true => exact block_mirrors (stmts_mirrors calls yes .nil)
    | false => exact block_mirrors (stmts_mirrors calls no .nil)

theorem stmts_mirrors (calls : MirrorsCalls excused call call') :
    (ss : List Stmt) → ∀ last : Value, Mirrors excused (stmts call last ss) (stmts call' last ss)
  | [], last => by
    rw [stmts, stmts]
    exact .pure _
  | st :: ss, last => by
    rw [stmts, stmts]
    exact (stmt_mirrors calls st).bind fun v => stmts_mirrors calls ss v

end

theorem runBody_alike (calls : MirrorsCalls excused call call') (body : List Stmt)
    (entered : Fields Value) (s : EvalState) (fs fs' : List (Fields Value)) :
    Alike excused (fun gs gs' => gs = fs ∧ gs' = fs')
      (runBody call body entered { s with frames := fs })
      (runBody call' body entered { s with frames := fs' }) := by
  have ran := stmts_mirrors calls body .nil (s.enterCall entered) entered fs fs'
  refine ran.bind fun v t gs gs' same => ?_
  obtain ⟨frame, rfl, rfl⟩ := same
  exact .ok v t.leaveCall ⟨rfl, rfl⟩

end

/-- Calls with at least as many levels left go the same way, unless the fewer levels do not
suffice and that is excused. By induction on the levels. -/
theorem invoke_alike {limit limit' levels levels' : Nat} (le : levels ≤ levels')
    (free : levels = levels' ∧ limit = limit' ∨
      ∀ fault, SemanticFault.OfLimit fault → excused fault)
    (c : Closure) (args : List Value) (pos : Position) (s : EvalState)
    (fs fs' : List (Fields Value)) :
    Alike excused (fun gs gs' => gs = fs ∧ gs' = fs')
      (invoke limit levels c args pos { s with frames := fs })
      (invoke limit' levels' c args pos { s with frames := fs' }) := by
  induction levels generalizing levels' c args pos s fs fs' with
  | zero =>
    unfold invoke
    split
    · exact .error _ s fs fs'
    · rcases free with ⟨rfl, rfl⟩ | free
      · exact .error _ s fs fs'
      · exact .excused _ _ (free _ ⟨c.name, limit, rfl⟩)
  | succ levels ih =>
    obtain ⟨levels', rfl⟩ : ∃ k, levels' = k + 1 := ⟨levels' - 1, by omega⟩
    have calls : ∀ c args pos,
        Mirrors excused (invoke limit levels c args pos) (invoke limit' levels' c args pos) :=
      fun c args pos => .of_alike (ih (Nat.le_of_succ_le_succ le) (by simpa using free) c args pos)
    rw [invoke_succ, invoke_succ]
    split
    · exact .error _ s fs fs'
    · exact runBody_alike calls _ _ s fs fs'

/-- A function's call depends on its arguments and on what it captured, and on no variable of its
caller: from states that differ in their frames only it gives the same and attaches the same, and
if it ends well the frames of the caller are what they were. -/
theorem invoke_isolated (limit levels : Nat) (c : Closure) (args : List Value) (pos : Position)
    (s : EvalState) (frames : List (Fields Value)) :
    ∃ (r : Except SemanticError Value) (t : EvalState) (fs fs' : List (Fields Value)),
      invoke limit levels c args pos s = (r, { t with frames := fs }) ∧
      invoke limit levels c args pos { s with frames := frames } = (r, { t with frames := fs' }) ∧
      ∀ v, r = .ok v → fs = s.frames ∧ fs' = frames ∧ Target.Grown s.targets t.targets := by
  have grown (v t) (run : Yields (invoke limit levels c args pos) s v t) :
      Target.Grown s.targets t.targets := (invoke_restored run).steady.targets
  have alike : Alike (fun _ => False) (fun fs fs' => fs = s.frames ∧ fs' = frames)
      (invoke limit levels c args pos s)
      (invoke limit levels c args pos { s with frames := frames }) :=
    invoke_alike (Nat.le_refl levels) (.inl ⟨rfl, rfl⟩) c args pos s s.frames frames
  unfold Yields at grown
  generalize (invoke limit levels c args pos s : Except SemanticError Value × EvalState) = r
    at alike grown
  generalize (invoke limit levels c args pos { s with frames := frames } :
    Except SemanticError Value × EvalState) = r' at alike
  cases alike with
  | ok v t kept =>
    have targets := grown v _ rfl
    exact ⟨.ok v, t, _, _, rfl, rfl, fun _ _ => ⟨kept.1, kept.2, targets⟩⟩
  | error e t fs fs' => exact ⟨.error e, t, fs, fs', rfl, rfl, fun _ h => nomatch h⟩
  | excused _ _ h => exact h.elim

/-- A limit on the depth of calls that a script or a call does not reach has no part in what comes
of it: under any greater one the outcome is the same. -/
theorem outcome_of_limit_le {d d' : Nat} (le : d ≤ d') :
    (∀ script : Script, ¬ StoppedByLimit (script.evaluate d).1 →
      script.evaluate d' = script.evaluate d) ∧
    ∀ (handlers : Handlers) (c : Closure) (args : List Value),
      ¬ StoppedByLimit (handlers.call c args d).1 →
      handlers.call c args d' = handlers.call c args d := by
  have alike (c : Closure) (args : List Value) (pos : Position) (s : EvalState)
      (fs fs' : List (Fields Value)) :
      Alike SemanticFault.OfLimit (fun gs gs' => gs = fs ∧ gs' = fs')
        (invoke d d c args pos { s with frames := fs })
        (invoke d' d' c args pos { s with frames := fs' }) :=
    invoke_alike le (.inr fun _ h => h) c args pos s fs fs'
  constructor
  · intro script below
    have run : Alike _ (SameOver [] [])
        (stmts (invoke d d) .nil script.body (.start [] [.roots []]))
        (stmts (invoke d' d') .nil script.body (.start [] [.roots []])) :=
      stmts_mirrors (fun c args pos => .of_alike (alike c args pos)) script.body .nil
        (.start [] [.roots []]) [] [] []
    unfold Script.evaluate at below ⊢
    dsimp only at below ⊢
    generalize (stmts (invoke d d) .nil script.body _ :
      Except SemanticError Value × EvalState) = r at run below ⊢
    generalize (stmts (invoke d' d') .nil script.body _ :
      Except SemanticError Value × EvalState) = r' at run ⊢
    cases run with
    | ok v t same =>
      obtain ⟨frame, rfl, rfl⟩ := same
      rfl
    | error e t fs fs' => rfl
    | excused t r h => exact absurd ⟨_, rfl, h⟩ below
  · intro handlers c args below
    have run : Alike _ _ (invoke d d c args c.pos (.start handlers []))
        (invoke d' d' c args c.pos (.start handlers [])) :=
      alike c args c.pos (.start handlers []) [[]] [[]]
    unfold Handlers.call at below ⊢
    generalize (invoke d d c args c.pos _ :
      Except SemanticError Value × EvalState) = r at run below ⊢
    generalize (invoke d' d' c args c.pos _ :
      Except SemanticError Value × EvalState) = r' at run ⊢
    cases run with
    | ok v t kept =>
      obtain ⟨rfl, rfl⟩ := kept
      rfl
    | error e t fs fs' => rfl
    | excused t r h => exact absurd ⟨_, rfl, h⟩ below

/-- A component that calls another needs two levels; a greater limit changes nothing. -/
theorem outcome_of_limit_le_nested :
    let label : Closure := ⟨"label", ["id"],
      [.expr (.call "text" [] [.mk "id" (.ident "id" .none) .none] none .none)], [], .none⟩
    let field : Closure := ⟨"field", ["id"],
      [.expr (.call "label" [.ident "id" .none] [] none .none)], [], .none⟩
    let script : Script := ⟨[.define "label" label.params label.body .none,
      .define "field" field.params field.body .none,
      .expr (.call "window" [] [.mk "id" (.literal (.str "main") .none) .none]
        (some (.mk .doEnd
          [.expr (.call "field" [.literal (.str "name") .none] [] none .none)] .none)) .none)]⟩
    let args := [Value.str "name"]
    let handlers : Handlers := [("label", label), ("field", field)]
    2 ≤ 64 ∧ ¬ StoppedByLimit (script.evaluate 2).1 ∧
      ¬ StoppedByLimit (handlers.call field args 2).1 ∧
      script.evaluate 64 = script.evaluate 2 ∧
      handlers.call field args 64 = handlers.call field args 2 := by
  intro label field script args handlers
  have le : 2 ≤ 64 := by decide
  have built : (script.evaluate 2).1 = .ok ⟨⟨[⟨.window, "main", [],
    [⟨.text, "name", [], [], .none⟩], .none⟩]⟩, handlers⟩ := by rfl
  have called : (handlers.call field args 2).1 =
    .ok (.node ⟨.text, "name", [], [], .none⟩) := by rfl
  have below : ¬ StoppedByLimit (script.evaluate 2).1 := by
    rw [built]
    rintro ⟨e, h, -⟩
    exact nomatch h
  have below' : ¬ StoppedByLimit (handlers.call field args 2).1 := by
    rw [called]
    rintro ⟨e, h, -⟩
    exact nomatch h
  obtain ⟨scripts, calls⟩ := outcome_of_limit_le le
  exact ⟨le, below, below', scripts script below, calls handlers field args below'⟩

end Eval
end WidgetScript
