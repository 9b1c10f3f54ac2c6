import WidgetScript.Proofs.Parser.Collections

/-! Statements and bodies. A body leaves the stream at the token that closes it, past the
newlines before that token. -/
namespace WidgetScript

def Token.ends : Token → Bool
  | .newline | .eof | .endKw | .rbrace | .elseKw => true
  | _ => false

theorem Closer.ends_of_accepts {closer : Closer} {t : Token} (h : closer.accepts t) : t.ends := by
  unfold Closer.accepts at h
  split at h <;> simp_all [Token.ends]

theorem Token.ends_of_opens {t : Token} (h : t.opens) : t.ends = false := by
  cases t <;> simp_all [Token.opens, Token.ends]

theorem Token.grip_of_ends {t : Token} (h : t.ends) : t.grip = 0 := by
  cases t <;> simp_all [Token.ends, Token.grip]

namespace Parser
open TokenStream Parse

variable {inner : Level} {s s' : TokenStream} {ts us : List Token} {tss : List (List Token)}
  {sts : List Stmt} {closer : Closer}

/-! ## Bodies -/

theorem endOfStmt_run (h : s.peek.ends) :
    ∃ s', endOfStmt s = .ok ((), s') ∧ s'.skipNewlines = s.skipNewlines ∧
      s'.rest.length ≤ s.rest.length := by
  -- A newline is passed, anything else that ends a statement is left to the body.
  by_cases newline : s.peek = .newline
  · refine ⟨s.advance, ?_, (skipNewlines_of_eq newline).symm, length_advance_le⟩
    rw [endOfStmt, run_peek_bind, newline]
    rfl
  · refine ⟨s, ?_, rfl, Nat.le_refl _⟩
    rw [endOfStmt, run_peek_bind]
    generalize s.peek = t at h newline
    cases t <;> first | rfl | exact absurd rfl newline | exact nomatch h

theorem ends_of_accepts_skipNewlines (h : closer.accepts s.skipNewlines.peek) : s.peek.ends := by
  by_cases newline : s.peek = .newline
  · rw [newline]
    rfl
  · rw [skipNewlines_of_ne newline] at h
    exact Closer.ends_of_accepts h

structure Stated (inner : Level) (ts : List Token) (st : Stmt) : Prop where
  head : ∃ t us, ts = t :: us ∧ t.ends = false
  reads : ∀ ⦃s s'⦄, Ahead ts s s' → s'.peek.ends →
    ∃ st', stmt inner s = .ok (st', s') ∧ st'.bare = st.bare

theorem head?_lines (h : List.Forall₂ (Stated inner) tss sts) :
    (lines tss).head? ≠ some .newline := by
  cases h with
  | nil => nofun
  | @cons ts st tss sts head tail =>
    obtain ⟨t, us, rfl, ends⟩ := head.head
    have : (lines ((t :: us) :: tss)).head? = some t := by cases tss <;> simp [lines]
    rw [this]
    rintro ⟨⟩
    exact nomatch ends

/-- Behind the first statement there is its newline or, behind the last one, what closes the
body; either way the other statements are ahead once newlines are skipped. -/
theorem ahead_lines_cons (tail : List.Forall₂ (Stated inner) tss sts)
    (ahead : Ahead (lines (ts :: tss)) s s') (close : closer.accepts s'.skipNewlines.peek) :
    ∃ s₁ s₂ s₃, Ahead ts s s₁ ∧ s₁.peek.ends ∧ endOfStmt s₁ = .ok ((), s₂) ∧
      s₂.rest.length ≤ s₁.rest.length ∧ Ahead (lines tss) s₂.skipNewlines s₃ ∧
      s₃.skipNewlines = s'.skipNewlines := by
  cases tss with
  | nil =>
    rw [lines, List.intercalate_singleton] at ahead
    have ends := ends_of_accepts_skipNewlines close
    obtain ⟨s₂, run, skipped, shorter⟩ := endOfStmt_run ends
    exact ⟨s', s₂, s₂.skipNewlines, ahead, ends, run, shorter, rfl, by
      rw [skipNewlines_idem, skipped]⟩
  | cons us tss =>
    rw [lines, List.intercalate_cons_cons, List.append_assoc, ahead_append] at ahead
    obtain ⟨s₁, before, behind⟩ := ahead
    obtain ⟨s₃, rest, skipped⟩ := behind.advance.skipNewlines (head?_lines tail)
    refine ⟨s₁, s₁.advance, s₃, before, by rw [behind.peek]; rfl, ?_, length_advance_le, rest,
      skipped⟩
    rw [endOfStmt, run_peek_bind, behind.peek]
    rfl

theorem stmts_step (b : Lexeme) (budget : List Lexeme) (h : s.skipNewlines.peek.ends = false) :
    stmts inner closer (b :: budget) s =
      (do let first ← stmt inner; endOfStmt; let rest ← stmts inner closer budget
          pure (first :: rest)) s.skipNewlines := by
  have refused : closer.accepts s.skipNewlines.peek = false :=
    Bool.eq_false_iff.2 fun accepted => by simp [Closer.ends_of_accepts accepted] at h
  rw [stmts, run_skipNewlines_bind, run_peek_bind, refused]
  generalize s.skipNewlines.peek = t at h
  cases t <;> first | rfl | exact nomatch h

theorem stmts_run (h : List.Forall₂ (Stated inner) tss sts) (budget : List Lexeme)
    (ahead : Ahead (lines tss) s.skipNewlines s') (close : closer.accepts s'.skipNewlines.peek)
    (long : s.rest.length < budget.length) :
    ∃ sts', stmts inner closer budget s = .ok (sts', s'.skipNewlines) ∧
      Stmt.bareAll sts' = Stmt.bareAll sts := by
  induction h generalizing budget s s' with
  | nil =>
    obtain rfl : s.skipNewlines = s' := ahead
    rw [skipNewlines_idem] at close ⊢
    match budget with
    | b :: budget =>
      refine ⟨[], ?_, rfl⟩
      rw [stmts, run_skipNewlines_bind, run_peek_bind, if_pos close, run_pure]
  | @cons ts st tss sts head tail ih =>
    obtain ⟨s₁, s₂, s₃, before, ends, runEnd, shorter, behind, skipped⟩ :=
      ahead_lines_cons tail ahead close
    obtain ⟨st', run, bare⟩ := head.reads before ends
    have passed := before.length
    have skips : s.skipNewlines.rest.length ≤ s.rest.length := (List.dropWhile_suffix _).length_le
    obtain ⟨t, us, rfl, notEnd⟩ := head.head
    match budget with
    | b :: budget =>
      obtain ⟨sts', runRest, bareRest⟩ := ih budget behind (by rwa [skipped])
        (by simp only [List.length_cons] at long passed; omega)
      refine ⟨st' :: sts', ?_, by rw [Stmt.bareAll, Stmt.bareAll, bare, bareRest]⟩
      rw [stmts_step b budget (by rwa [before.peek]), run_bind run, run_bind runEnd,
        run_bind runRest, run_pure, skipped]

structure Body (level : Level) (ts : List Token) (body : List Stmt) : Prop where
  head : ts.head? ≠ some .newline
  reads : ∀ ⦃closer s s'⦄, Ahead ts s.skipNewlines s' → closer.accepts s'.skipNewlines.peek →
    ∃ body', level.body closer s = .ok (body', s'.skipNewlines) ∧
      Stmt.bareAll body' = Stmt.bareAll body

theorem body_of_stated (h : List.Forall₂ (Stated inner) tss sts) :
    Body (.around inner) (lines tss) sts where
  head := head?_lines h
  reads _ s _ ahead close := stmts_run h s.budget ahead close s.lt_length_budget

theorem Body.run {level : Level} {body : List Stmt} (h : Body level ts body) (closer : Closer)
    {t : Token} (ahead : Ahead (.newline :: (ts ++ .newline :: t :: us)) s s')
    (close : closer.accepts t) :
    ∃ body' s₁, level.body closer s = .ok (body', s₁) ∧ Ahead (t :: us) s₁ s' ∧
      Stmt.bareAll body' = Stmt.bareAll body := by
  obtain ⟨s₁, within, behind⟩ := ahead_append.1 ahead.advance
  obtain ⟨s₂, within, skipped⟩ := within.skipNewlines h.head
  rw [← skipNewlines_of_eq ahead.peek] at within
  have notNewline : s₁.advance.peek ≠ .newline := by
    rw [behind.advance.peek]
    rintro rfl
    cases closer <;> exact nomatch close
  rw [skipNewlines_of_eq behind.peek, skipNewlines_of_ne notNewline] at skipped
  obtain ⟨body', run, bare⟩ := h.reads within (by rwa [skipped, behind.advance.peek])
  rw [skipped] at run
  exact ⟨body', s₁.advance, run, behind.advance, bare⟩

/-! ## Blocks -/

def awaited (delimiter : Delimiter) (opened : Position) : Closer :=
  match delimiter with
  | .doEnd => .ofDo opened
  | .braces => .ofBrace opened

theorem follows_block {body : List Stmt} (h : Body inner ts body) (delimiter : Delimiter)
    (pos : Position) :
    Follows inner (delimiter.opener :: .newline :: (ts ++ [.newline, delimiter.closer]))
      (some (.mk delimiter body pos)) := by
  refine .some (by cases delimiter <;> decide) fun s s' ahead => ?_
  obtain ⟨body', s₁, run, close, bare⟩ :=
    h.run (awaited delimiter s.pos) ahead.advance (by cases delimiter <;> rfl)
  refine ⟨.mk delimiter body' s.pos, ?_, by simp only [Block.bare, bare]⟩
  have ends := close.peek
  obtain rfl : s₁.advance = s' := close.advance
  rw [block, run_pos_bind, run_peek_bind, ahead.peek]
  cases delimiter
  all_goals
    simp only [awaited, Delimiter.opener, Delimiter.closer] at run ends ⊢
    rw [run_advance_bind, run_bind run, run_expect_bind ends, run_pure]

/-! ## Statements -/

theorem Leading.head (h : Leading ts) : ∃ t us, ts = t :: us ∧ t.ends = false := by
  match ts, h with
  | t :: us, h => exact ⟨t, us, rfl, Token.ends_of_opens h.1⟩

theorem Stated.expr {e : Expr} (h : Whole inner ts e) : Stated inner ts (.expr e) where
  head := h.leading.head
  reads s s' ahead ends := by
    obtain ⟨e', run, bare⟩ := h.reads ahead (Token.grip_of_ends ends).le
    refine ⟨.expr e', ?_, by rw [Stmt.bare, Stmt.bare, bare]⟩
    have notDef : s.peek ≠ .defKw := h.leading.peek_ne ahead rfl
    have notIf : s.peek ≠ .ifKw := h.leading.peek_ne ahead rfl
    have notTarget : ∀ name, s.peek = .ident name → s.second = .assign → False :=
      fun name hname => (h.leading.second_ne ahead (fun e => by simp [e, Token.ends] at ends)
        (fun e => by simp [e, Token.ends] at ends) hname).2
    rw [stmt, run_get_bind]
    simp only
    exact run_map run _

theorem Stated.assign (name : String) {e : Expr} (h : Whole inner ts e) (pos : Position) :
    Stated inner (.ident name :: .assign :: ts) (.assign name e pos) where
  head := ⟨_, _, rfl, rfl⟩
  reads s s' ahead ends := by
    have behind := ahead.advance.advance
    obtain ⟨e', run, bare⟩ := h.reads behind (Token.grip_of_ends ends).le
    refine ⟨.assign name e' s.pos, ?_, by rw [Stmt.bare, Stmt.bare, bare]⟩
    rw [stmt, run_get_bind, second_eq_peek_advance, ahead.peek, ahead.advance.peek]
    simp only [run_advance_bind, run_skipNewlines_bind,
      skipNewlines_of_ne (h.leading.peek_ne behind rfl), run_bind run, run_pure]

theorem peek_params_ne (names : List String)
    (ahead : Ahead (commas (names.map ([.ident ·]))) s s') (close : s'.peek = .rparen) :
    s.peek ≠ .newline := by
  cases names with
  | nil =>
    obtain rfl : s = s' := ahead
    rw [close]
    nofun
  | cons name names =>
    rw [List.map_cons, commas_cons_cons] at ahead
    rw [ahead.peek]
    nofun

theorem params_run {names : List String} (budget : List Lexeme) (seen : List String)
    (nodup : names.Nodup) (fresh : ∀ name ∈ names, name ∉ seen)
    (ahead : Ahead (commas (names.map ([.ident ·]))) s s') (close : s'.peek = .rparen)
    (long : s.rest.length < budget.length) : params budget seen s = .ok (names, s') := by
  induction names generalizing budget seen s with
  | nil =>
    obtain rfl : s = s' := ahead
    match budget with
    | b :: budget => rw [params, run_peek_bind, if_pos close, run_pure]
  | cons name names ih =>
    obtain ⟨unseen, nodup, fresh⟩ := fresh_of_nodup nodup fresh
    rw [List.map_cons, commas_cons_cons] at ahead
    have passed := ahead.advance_lt
    have first := ahead.peek
    have behind := ahead.advance
    match budget with
    | b :: budget =>
      rw [params, run_peek_bind, if_neg (by rw [first]; nofun), run_pos_bind,
        run_ident_bind first, if_neg unseen, run_skipNewlines_bind]
      cases names with
      | nil =>
        obtain rfl : s.advance = s' := behind
        have run := ih budget (name :: seen) nodup fresh rfl
          (by rw [List.length_cons] at long; omega)
        rw [skipNewlines_of_ne (by rw [close]; nofun), run_peek_bind, close]
        simp only [run_bind run, run_pure]
      | cons next names =>
        rw [List.map_cons, commas_nil_cons] at behind
        have second := behind.peek
        have run := ih budget (name :: seen) nodup fresh behind.advance
          (by have := behind.advance_lt; rw [List.length_cons] at long; omega)
        rw [skipNewlines_of_ne (by rw [second]; nofun), run_peek_bind, second]
        simp only [run_advance_bind, run_skipNewlines_bind,
          skipNewlines_of_ne (peek_params_ne (next :: names) behind.advance close), run_bind run,
          run_pure]

theorem Stated.define (name : String) {params : List String} (nodup : params.Nodup)
    {body : List Stmt} (h : Body inner ts body) (pos : Position) :
    Stated inner (.defKw :: .ident name :: .lparen :: (commas (params.map ([.ident ·])) ++
      .rparen :: .newline :: (ts ++ [.newline, .endKw]))) (.define name params body pos) where
  head := ⟨_, _, rfl, rfl⟩
  reads s s' ahead _ := by
    have paren := ahead.advance.advance
    obtain ⟨s₁, within, close⟩ := ahead_append.1 paren.advance
    have run := params_run s.advance.advance.advance.budget [] nodup nofun within close.peek
      s.advance.advance.advance.lt_length_budget
    obtain ⟨body', s₂, runBody, done, bare⟩ := h.run (.ofDef s.pos) close.advance rfl
    refine ⟨.define name params body' s.pos, ?_, by rw [Stmt.bare, Stmt.bare, bare]⟩
    rw [stmt, run_get_bind, ahead.peek]
    simp only [Parser.define, run_pos_bind, run_advance_bind, run_ident_bind ahead.advance.peek,
      run_peek_bind, paren.peek, run_skipNewlines_bind,
      skipNewlines_of_ne (peek_params_ne params within close.peek), run_rounds_bind, run_bind run,
      pure_bind, run_bind runBody, run_expect_bind done.peek, run_pure]
    rw [show s₂.advance = s' from done.advance]

theorem Stated.cond {test : Expr} (h : Whole inner us test) {yes : List Stmt}
    (hyes : Body inner ts yes) (pos : Position) :
    Stated inner (.ifKw :: (us ++ .newline :: (ts ++ [.newline, .endKw])))
      (.cond test yes [] pos) where
  head := ⟨_, _, rfl, rfl⟩
  reads s s' ahead _ := by
    obtain ⟨s₁, within, behind⟩ := ahead_append.1 ahead.advance
    obtain ⟨test', run, bare⟩ := h.reads within (by rw [behind.peek]; decide)
    obtain ⟨yes', s₂, runYes, done, bareYes⟩ := hyes.run (.ofThen s.pos) behind rfl
    refine ⟨.cond test' yes' [] s.pos, ?_, by rw [Stmt.bare, Stmt.bare, bare, bareYes]⟩
    rw [stmt, run_get_bind, ahead.peek]
    simp only [Parser.cond, run_pos_bind, run_advance_bind, run_bind run, run_bind runYes,
      run_peek_bind, done.peek, pure_bind, run_expect_bind done.peek, run_pure]
    rw [show s₂.advance = s' from done.advance]

theorem Stated.condElse {test : Expr} (h : Whole inner us test) {yes no : List Stmt}
    (hyes : Body inner ts yes) {vs : List Token} (hno : Body inner vs no) (pos : Position) :
    Stated inner (.ifKw :: (us ++ .newline :: (ts ++ .newline :: .elseKw ::
      .newline :: (vs ++ [.newline, .endKw])))) (.cond test yes no pos) where
  head := ⟨_, _, rfl, rfl⟩
  reads s s' ahead _ := by
    obtain ⟨s₁, within, behind⟩ := ahead_append.1 ahead.advance
    obtain ⟨test', run, bare⟩ := h.reads within (by rw [behind.peek]; decide)
    obtain ⟨yes', s₂, runYes, other, bareYes⟩ := hyes.run (.ofThen s.pos) behind rfl
    obtain ⟨no', s₃, runNo, done, bareNo⟩ := hno.run (.ofIf s.pos) other.advance rfl
    refine ⟨.cond test' yes' no' s.pos, ?_, by rw [Stmt.bare, Stmt.bare, bare, bareYes, bareNo]⟩
    rw [stmt, run_get_bind, ahead.peek]
    simp only [Parser.cond, run_pos_bind, run_advance_bind, run_bind run, run_bind runYes,
      run_peek_bind, other.peek, run_bind runNo, run_expect_bind done.peek, run_pure]
    rw [show s₃.advance = s' from done.advance]

end Parser

end WidgetScript
