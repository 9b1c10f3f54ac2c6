import WidgetScript.Proofs.Parser.Statements

/-! A script's tokens are read as the script. The levels that the parser has left bound those
that the tree takes, so the induction on the tree has a level at which to read each part. -/
namespace WidgetScript

theorem BinaryOp.exists_prec (op : BinaryOp) : ∃ i < 6, op.prec = i + 1 := by
  cases op <;> exact ⟨_, by decide, rfl⟩

theorem Expr.one_le_prec (e : Expr) : 1 ≤ e.prec := by
  cases e with
  | binary op =>
    obtain ⟨i, -, h⟩ := op.exists_prec
    rw [Expr.prec, h]
    exact Nat.le_add_left 1 i
  | _ => simp [Expr.prec]

namespace Parser
variable {n min : Nat} {e : Expr} {ss : List Stmt}

/-- The expression is read from its tokens wherever there are levels enough left for it. -/
def Readable (e : Expr) : Prop := ∀ n, e.levels ≤ n → Spelled (.ofNat n) e.prec e.tokens e

theorem Readable.whole (h : Readable e) (levels : e.levels + 1 ≤ n) :
    Whole (.ofNat n) e.tokens e := by
  match n with
  | n + 1 => exact ((h n (Nat.le_of_succ_le_succ levels)).mono e.one_le_prec).whole

theorem Readable.enclosed (h : Readable e) (hmin : min ≤ 8)
    (levels : levelsEnclosed min e.prec e.levels ≤ n) :
    Spelled (.ofNat n) min (enclose min e.prec e.tokens) e := by
  unfold levelsEnclosed at levels
  unfold enclose
  split
  next weaker =>
    rw [if_pos weaker] at levels
    exact (Spelled.parentheses (h.whole levels)).mono hmin
  next stronger =>
    rw [if_neg stronger] at levels
    exact (h n levels).mono (Nat.le_of_not_lt stronger)

theorem Readable.binary (op : BinaryOp) {lhs rhs : Expr} (hl : Readable lhs) (hr : Readable rhs)
    (pos : Position) : Readable (.binary op lhs rhs pos) := by
  intro n levels
  obtain ⟨left, right⟩ := Nat.max_le.1 levels
  obtain ⟨i, hi, hop⟩ := op.exists_prec
  have before := hl.enclosed (by omega) left
  have behind := hr.enclosed (by omega) right
  rw [Expr.prec, Expr.tokens]
  rw [hop] at before behind ⊢
  refine .ofChain ?_ ((before.chained i hi (Nat.lt_succ_self i)).binary hop pos
    (behind.readsAt hi) behind.leading) hi
  exact before.leading.append (by cases op <;> nofun) (by cases op <;> nofun)

def Listed (ss : List Stmt) : Prop :=
  ∀ n, Stmt.levelsAll ss ≤ n → List.Forall₂ (Stated (.ofNat n)) (Stmt.tokensEach ss) ss

theorem Listed.body (h : Listed ss) (levels : Stmt.levelsAll ss + 1 ≤ n) :
    Body (.ofNat n) (lines (Stmt.tokensEach ss)) ss := by
  match n with
  | n + 1 => exact body_of_stated (h n (Nat.le_of_succ_le_succ levels))

mutual

theorem expr_readable : (e : Expr) → e.Plain → Readable e
  | .literal value pos, _ => fun _ _ => .literal value pos
  | .ident name pos, _ => fun _ _ => .ident name pos
  | .symbol name pos, _ => fun _ _ => .symbol name pos
  | .list items pos, plain => fun _ levels => .list (exprs_whole items plain levels) pos
  | .map entries pos, plain => fun _ levels =>
      .map (entries_keyed entries plain.2 levels) plain.1 pos
  | .call name args kwargs block pos, plain => by
      obtain ⟨hargs, ⟨nodup, hkwargs⟩, hblock⟩ := plain
      intro n levels
      obtain ⟨within, levelsBlock⟩ := Nat.max_le.1 levels
      obtain ⟨levelsArgs, levelsKwargs⟩ := Nat.max_le.1 within
      exact .call name (exprs_whole args hargs levelsArgs)
        (entries_keyed kwargs hkwargs levelsKwargs) nodup (block_follows block hblock levelsBlock) pos
  | .index target index pos, plain => by
      intro n levels
      obtain ⟨levelsTarget, levelsIndex⟩ := Nat.max_le.1 levels
      exact .index ((expr_readable target plain.1).enclosed (Nat.le_refl 8) levelsTarget)
        ((expr_readable index plain.2).whole levelsIndex) pos
  | .field target name pos, plain => fun _ levels =>
      .field ((expr_readable target plain).enclosed (Nat.le_refl 8) levels) name pos
  | .unary op operand pos, plain => fun
      | _ + 1, levels => .unary op ((expr_readable operand plain).enclosed (by decide)
          (Nat.le_of_succ_le_succ levels)) pos
  | .binary op lhs rhs pos, plain =>
      .binary op (expr_readable lhs plain.1) (expr_readable rhs plain.2) pos

theorem exprs_whole : (es : List Expr) → Expr.PlainAll es → ∀ {n}, Expr.levelsAll es ≤ n →
    List.Forall₂ (Whole (.ofNat n)) (Expr.tokensEach es) es
  | [], _, _, _ => .nil
  | e :: es, plain, _, levels =>
      have ⟨first, rest⟩ := Nat.max_le.1 levels
      .cons ((expr_readable e plain.1).whole first) (exprs_whole es plain.2 rest)

theorem entries_keyed : (es : List Entry) → Entry.PlainAll es → ∀ {n}, Entry.levelsAll es ≤ n →
    List.Forall₂ (Keyed (.ofNat n)) (Entry.tokensEach es) es
  | [], _, _, _ => .nil
  | .mk _ value _ :: es, plain, _, levels =>
      have ⟨first, rest⟩ := Nat.max_le.1 levels
      .cons ⟨value.tokens, rfl, (expr_readable value plain.1).whole first⟩
        (entries_keyed es plain.2 rest)

theorem block_follows : (b : Option Block) → Block.Plain? b → ∀ {n}, Block.levels? b ≤ n →
    Follows (.ofNat n) (Block.tokens? b) b
  | none, _, _, _ => .none
  | some (.mk delimiter body pos), plain, _, levels =>
      follows_block (Listed.body (stmts_listed body plain) levels) delimiter pos

theorem stmt_stated : (s : Stmt) → s.Plain → ∀ {n}, s.levels ≤ n → Stated (.ofNat n) s.tokens s
  | .expr value, plain, _, levels => .expr ((expr_readable value plain).whole levels)
  | .assign name value pos, plain, _, levels =>
      .assign name ((expr_readable value plain).whole levels) pos
  | .define name _ body pos, plain, _, levels =>
      .define name plain.1 (Listed.body (stmts_listed body plain.2) levels) pos
  | .cond test yes [] pos, ⟨htest, hyes, _⟩, _, levels => by
      obtain ⟨levelsTest, branches⟩ := Nat.max_le.1 levels
      have levelsYes := Nat.le_trans (Nat.succ_le_succ (Nat.le_max_left _ _)) branches
      exact .cond ((expr_readable test htest).whole levelsTest)
        (Listed.body (stmts_listed yes hyes) levelsYes) pos
  | .cond test yes (s :: no) pos, ⟨htest, hyes, hno⟩, _, levels => by
      obtain ⟨levelsTest, branches⟩ := Nat.max_le.1 levels
      have levelsYes := Nat.le_trans (Nat.succ_le_succ (Nat.le_max_left _ _)) branches
      have levelsNo := Nat.le_trans (Nat.succ_le_succ (Nat.le_max_right _ _)) branches
      exact .condElse ((expr_readable test htest).whole levelsTest)
        (Listed.body (stmts_listed yes hyes) levelsYes)
        (Listed.body (stmts_listed (s :: no) hno) levelsNo) pos

theorem stmts_listed : (ss : List Stmt) → Stmt.PlainAll ss → Listed ss
  | [], _ => fun _ _ => .nil
  | s :: ss, plain => fun n levels =>
      have ⟨first, rest⟩ := Nat.max_le.1 levels
      .cons (stmt_stated s plain.1 first) (stmts_listed ss plain.2 n rest)

end

/-- A script without placeholders that keeps within the levels is what its tokens are read as,
wherever each of them stands. -/
theorem script_tokens {s : Script} (plain : s.Plain) (levels : s.levels ≤ maxNesting)
    {lexemes : List Lexeme} (spelled : lexemes.map Lexeme.token = s.tokens ++ [.eof]) :
    ∃ s', script lexemes = .ok s' ∧ s'.bare = s.bare := by
  have body : Body (.ofNat maxNesting) s.tokens s.body := (stmts_listed s.body plain).body levels
  obtain ⟨s₁, ahead, rest⟩ :=
    TokenStream.ahead_of_map_eq (show (TokenStream.ofList lexemes).rest.map _ = _ from spelled)
  obtain ⟨s₂, within, skipped⟩ := ahead.skipNewlines body.head
  have finish : s₁.peek = .eof := TokenStream.peek_of_map_eq rest
  have notNewline : s₁.peek ≠ .newline := by
    rw [finish]
    nofun
  rw [TokenStream.skipNewlines_of_ne notNewline] at skipped
  have close : Closer.eof.accepts s₂.skipNewlines.peek := by
    rw [skipped, finish]
    rfl
  obtain ⟨ss, run, bare⟩ := body.reads within close
  refine ⟨⟨ss⟩, ?_, by rw [Script.bare, Script.bare, bare]⟩
  rw [script, run]
  rfl

/-- A function, a call with arguments of both kinds and a block, and in it a conditional whose
test and branches need parentheses in some places and not in others. -/
def sampleScript : Script where
  body :=
    let name (x : String) : Expr := .ident x .none
    [ .define "area" ["w", "h"]
        [.expr (.binary .mul (.binary .add (name "w") (name "h") .none)
          (.unary .neg (name "w") .none) .none)] .none,
      .expr (.call "panel" [.list [.literal (.bool true) .none, .symbol "x" .none] .none]
        [.mk "size" (.map [.mk "w" (name "w") .none] .none) .none]
        (some (.mk .doEnd
          [.cond (.binary .eq (.unary .not (.index (.field (name "a") "b" .none) (name "i") .none)
              .none) (.literal .nil .none) .none)
            [.assign "y" (.field (.unary .neg (.call "f" [] [] none .none) .none) "c" .none) .none]
            [.expr (.binary .sub (name "a") (.binary .sub (name "b") (name "c") .none) .none)]
            .none] .none)) .none) ]

theorem script_tokens_sample :
    sampleScript.Plain ∧ sampleScript.levels ≤ maxNesting ∧
      ∃ s', script ((sampleScript.tokens ++ [Token.eof]).map (⟨·, .start⟩)) = .ok s' ∧
        s'.bare = sampleScript.bare := by
  have plain : sampleScript.Plain := by
    simp [sampleScript, Script.Plain, Stmt.PlainAll, Stmt.Plain, Expr.Plain, Expr.PlainAll,
      Entry.PlainAll, Entry.Plain, Entry.key, Block.Plain?, Block.Plain]
  have levels : sampleScript.levels ≤ maxNesting := by decide
  exact ⟨plain, levels, script_tokens plain levels (by rw [List.map_map]; exact List.map_id _)⟩

end Parser

end WidgetScript
