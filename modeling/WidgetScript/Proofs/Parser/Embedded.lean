import Mathlib
import WidgetScript.Proofs.Parser.Balanced
import WidgetScript.Proofs.Parser.Reread

/-! An expression as the placeholder of a string. It is read there as it is on its own, if the
search for the brace that closes the placeholder comes to the one behind it. -/
namespace WidgetScript

def embed (source : String) : String := "\"#\x7b" ++ source ++ "\x7d\""

theorem toList_embed (source : String) :
    (embed source).toList = '"' :: '#' :: '\x7b' :: (source.toList ++ '\x7d' :: ['"']) := by
  simp [embed]

def Uncommented (source : String) : Prop :=
  Lexer.uncommented (source.toList.length + 1) none ⟨source.toList, .start⟩ = true

namespace Lexer

theorem pieces_hole {opened p : Position} {c : Char} {budget cs source : List Char} {s : Cursor}
    (found : placeholder 0 none cs ((p.advance '#').advance '\x7b') = some (source, s)) :
    pieces opened (c :: budget) ⟨'#' :: '\x7b' :: cs, p⟩ = (pieces opened budget s).map fun r =>
      (.hole (String.ofList source) ((p.advance '#').advance '\x7b') :: r.1, r.2) := by
  simp only [pieces, found]
  cases pieces opened budget s <;> rfl

theorem tokenize_embed {source : String} (closed : scan 0 none source.toList = some (0, none)) :
    ∃ p, tokenize (embed source) =
      .ok [⟨.str [.placeholder source ⟨1, 4⟩], .start⟩, ⟨.eof, p⟩] := by
  have captured := placeholder_of_scan closed ['"'] ⟨1, 4⟩
  generalize Position.after ⟨1, 4⟩ (source.toList ++ ['\x7d']) = q at captured
  let inside : List Char := '#' :: '\x7b' :: (source.toList ++ '\x7d' :: ['"'])
  have read : pieces .start ('"' :: inside) ⟨inside, ⟨1, 2⟩⟩ =
      .ok ([.hole source ⟨1, 4⟩], ⟨[], q.advance '"'⟩) := by
    rw [pieces_hole captured, String.ofList_toList]
    rfl
  have blanks : skipBlanks false ('"' :: inside) .start = ⟨'"' :: inside, .start⟩ := by
    rw [skipBlanks]
    · rfl
    · simp
  refine ⟨q.advance '"', ?_⟩
  rw [tokenize, tokenizeAt, toList_embed]
  change tokens ('"' :: inside).length.succ none ⟨'"' :: inside, .start⟩ = _
  rw [tokens]
  change (next none (skipBlanks false ('"' :: inside) .start) >>= _) = _
  rw [blanks]
  change ((pieces .start ('"' :: inside) ⟨inside, ⟨1, 2⟩⟩ >>= _) >>= _) = _
  rw [read]
  rfl

end Lexer

namespace Parser
open Parse

variable {inner : Level} {s s' : TokenStream}

theorem define_ne_expr {e : Expr} : define inner s ≠ .ok (.expr e, s') := by
  intro h
  rw [define, run_pos_bind, run_advance_bind] at h
  obtain ⟨name, s₁, -, h⟩ := bind_ok.1 h
  have never {names : List String} {s₂ : TokenStream}
      (h : (do
        let ss ← inner.body (.ofDef s.pos)
        expect .endKw
        pure (Stmt.define name names ss s.pos)) s₂ = .ok (.expr e, s')) : False := by
    obtain ⟨ss, s₃, -, h⟩ := bind_ok.1 h
    obtain ⟨_, s₄, -, h⟩ := bind_ok.1 h
    cases h
  rw [run_peek_bind] at h
  generalize s₁.peek = t at h
  split at h
  next =>
    rw [run_advance_bind, run_skipNewlines_bind, run_rounds_bind] at h
    obtain ⟨names, s₂, -, h⟩ := bind_ok.1 h
    exact never h
  next => exact never h

theorem cond_ne_expr {e : Expr} : cond inner s ≠ .ok (.expr e, s') := by
  intro h
  rw [cond, run_pos_bind, run_advance_bind] at h
  obtain ⟨test, s₁, -, h⟩ := bind_ok.1 h
  obtain ⟨yes, s₂, -, h⟩ := bind_ok.1 h
  rw [run_peek_bind] at h
  generalize s₂.peek = t at h
  split at h
  next =>
    rw [run_advance_bind] at h
    obtain ⟨no, s₃, -, h⟩ := bind_ok.1 h
    obtain ⟨_, s₄, -, h⟩ := bind_ok.1 h
    cases h
  next =>
    change (do expect .endKw; pure (Stmt.cond test yes [] s.pos) : Parse Stmt) s₂ = _ at h
    obtain ⟨_, s₄, -, h⟩ := bind_ok.1 h
    cases h

theorem stmt_eq_expr {e : Expr} (h : stmt inner s = .ok (.expr e, s')) :
    inner.expr s = .ok (e, s') := by
  rw [stmt, run_get_bind] at h
  generalize s.peek = t at h
  generalize s.second = t' at h
  split at h
  next => exact absurd h define_ne_expr
  next => exact absurd h cond_ne_expr
  next =>
    rw [run_advance_bind, run_advance_bind, run_skipNewlines_bind] at h
    obtain ⟨value, s₁, run, h⟩ := bind_ok.1 h
    cases h
  next =>
    obtain ⟨value, run, same⟩ := map_ok h
    cases same
    exact run

theorem stmts_eq_nil {b : List Lexeme} (h : stmts inner .eof b s = .ok ([], s')) :
    s.skipNewlines.peek = .eof := by
  cases b with
  | nil => exact absurd h not_fail
  | cons l b =>
    rw [stmts, run_skipNewlines_bind, run_peek_bind] at h
    generalize s.skipNewlines.peek = t at h
    split at h
    next accepted => cases t <;> first | rfl | cases accepted
    next =>
      split at h
      iterate 4 exact absurd h not_fail
      obtain ⟨first, s₁, -, h⟩ := bind_ok.1 h
      obtain ⟨_, s₂, -, h⟩ := bind_ok.1 h
      obtain ⟨rest, s₃, -, h⟩ := bind_ok.1 h
      cases h

theorem stmts_eq_expr {b : List Lexeme} {e : Expr}
    (h : stmts inner .eof b s = .ok ([.expr e], s')) :
    ∃ s₁, s.skipNewlines.peek ≠ .eof ∧ inner.expr s.skipNewlines = .ok (e, s₁) ∧
      s₁.skipNewlines.peek = .eof := by
  cases b with
  | nil => exact absurd h not_fail
  | cons l b =>
    rw [stmts, run_skipNewlines_bind, run_peek_bind] at h
    generalize ahead : s.skipNewlines.peek = t at h
    split at h
    next => cases h
    next open' =>
      split at h
      iterate 4 exact absurd h not_fail
      next notEnd _ _ _ =>
        obtain ⟨first, s₁, run, h⟩ := bind_ok.1 h
        obtain ⟨_, s₂, ended, h⟩ := bind_ok.1 h
        obtain ⟨rest, s₃, more, h⟩ := bind_ok.1 h
        cases h
        have finish := stmts_eq_nil more
        refine ⟨s₁, fun eq => notEnd eq, stmt_eq_expr run, ?_⟩
        rcases endOfStmt_ok ended with line | ⟨rfl, -⟩
        · have passed : s₁ = ⟨⟨.newline, s₁.pos⟩ :: s₂.rest, s₂.finish⟩ :=
            congrArg₂ TokenStream.mk line.1 line.2
          rw [passed, TokenStream.skipNewlines_of_eq rfl]
          exact finish
        · exact finish

theorem bind_eq_self {α : Type} {m : Parse α} {f : α → Parse α}
    (h : ∀ a t, m s = .ok (a, t) → f a t = .ok (a, t)) : (m >>= f) s = m s := by
  change (m s >>= fun r => f r.1 r.2) = _
  cases run : m s with
  | error e => rfl
  | ok r => exact h r.1 r.2 run

theorem string_state {ss : List Segment} {p : Position} {e : Expr}
    (h : string inner ss p s = .ok (e, s')) : s' = s := by
  unfold string at h
  split at h
  · cases h
    rfl
  · obtain ⟨ps, -, h⟩ := bind_eq_ok.1 h
    cases h
    rfl

theorem unary_alone {ss : List Segment} (ahead : s.peek = .str ss) (last : s.advance.peek = .eof) :
    unary inner s = string inner ss s.pos s.advance := by
  have primary : primary inner s = string inner ss s.pos s.advance := by
    rw [primary, run_pos_bind, run_peek_bind, run_advance_bind, ahead]
  rw [← primary, unary, run_pos_bind, run_peek_bind, ahead]
  refine bind_eq_self fun e t run => ?_
  rw [string_state (primary.symm.trans run), run_rounds_bind, TokenStream.budget, accesses,
    run_pos_bind, run_peek_bind, last]
  rfl

theorem binary_alone {ss : List Segment} (ahead : s.peek = .str ss)
    (last : s.advance.peek = .eof) (tiers : List (Token → Option BinaryOp))
    (none : ∀ tier ∈ tiers, tier .eof = none) :
    binary inner tiers s = string inner ss s.pos s.advance := by
  induction tiers with
  | nil => exact unary_alone ahead last
  | cons tier tiers ih =>
    obtain ⟨first, rest⟩ := List.forall_mem_cons.1 none
    have operand := ih rest
    rw [← operand, binary]
    refine bind_eq_self fun e t run => ?_
    rw [string_state (operand.symm.trans run), run_rounds_bind, TokenStream.budget, chain,
      run_peek_bind, last, first]
    rfl

theorem script_alone (ss : List Segment) (p q : Position) :
    script [⟨.str ss, p⟩, ⟨.eof, q⟩] =
      (string (.ofNat 62) ss p ⟨[⟨.eof, q⟩], q⟩).map fun r => ⟨[.expr r.1]⟩ := by
  let s : TokenStream := ⟨[⟨.str ss, p⟩, ⟨.eof, q⟩], q⟩
  have read : (Level.ofNat 63).expr s = string (.ofNat 62) ss p s.advance :=
    binary_alone rfl rfl tiers (by simp [tiers])
  have first : stmt (.ofNat 63) s = (string (.ofNat 62) ss p s.advance).map fun r =>
      (.expr r.1, r.2) := by
    change ((Level.ofNat 63).expr s >>= fun r => Except.ok (Stmt.expr r.1, r.2)) = _
    rw [read]
    rfl
  change (stmts (.ofNat 63) .eof s.budget s >>= fun r => Except.ok (Script.mk r.1)) = _
  have here : s.skipNewlines = s :=
    TokenStream.skipNewlines_of_ne (show Token.str ss ≠ .newline by simp)
  rw [TokenStream.budget, stmts, run_skipNewlines_bind, here]
  change ((stmt (.ofNat 63) s >>= fun r => _) >>= _) = _
  rw [first]
  change _ = (string (.ofNat 62) ss p s.advance).map _
  cases run : string (.ofNat 62) ss p s.advance with
  | error err => rfl
  | ok r =>
    obtain ⟨e, t⟩ := r
    cases string_state run
    rfl

theorem hole_of_parse {source : String} {e : Expr} {n : Nat} (levels : n ≤ 63) (p : Position)
    (parsed : Script.parse source = .ok ⟨[.expr e]⟩) :
    Retold (·.fault = .tooDeep maxNesting) (fun e e' => e.bare = e'.bare) (.ok e)
      (hole (.ofNat n) source p) := by
  obtain ⟨ls, lexed, parsed⟩ := bind_eq_ok.1 parsed
  obtain ⟨⟨body, t⟩, run, same⟩ := bind_eq_ok.1 parsed
  cases same
  obtain ⟨s₁, notEnd, read, finish⟩ :=
    stmts_eq_expr (show stmts (.ofNat 63) .eof _ (TokenStream.ofList ls) = _ from run)
  have relexed := Lexer.tokenizeAt_alike source .start p
  rw [show Lexer.tokenizeAt source .start = .ok ls from lexed] at relexed
  unfold hole
  generalize Lexer.tokenizeAt source p = r at relexed
  cases relexed with
  | @ok _ ls' same =>
    have ahead : TokenStream.Broken .fresh .none (TokenStream.ofList ls) (TokenStream.ofList ls') :=
      .of_alike same _ _
    have aligned := ahead.skipNewlines rfl
    have again := (Level.retells_ofNat levels (.inr fun _ => id)).expr _ _ aligned.closing
    rw [read] at again
    change Retold _ _ _ (if (TokenStream.ofList ls').skipNewlines.peek = .eof then _ else _)
    rw [if_neg fun eq => notEnd ((aligned.peek.eq_iff (by simp)).2 eq)]
    generalize (Level.ofNat n).expr (TokenStream.ofList ls').skipNewlines = r at again
    cases again with
    | @ok _ r same =>
      obtain ⟨value, behind, -⟩ := same
      have finish := ((behind.skipNewlines rfl).peek.eq_iff (by simp)).1 finish
      change Retold _ _ _ (if r.2.skipNewlines.peek = .eof then .ok r.1 else _)
      rw [if_pos finish]
      exact .ok value
    | tooDeep _ deep => exact .tooDeep _ deep

end Parser

namespace Script

/-- An expression without comments can be put into a placeholder, and is read there as it is on its
own unless it is nested too deep by then. To this end no placeholder that it has itself may mislead
the search for the closing brace. -/
theorem parse_embed {source : String} {e : Expr} {ls : List Lexeme}
    (parsed : Script.parse source = .ok ⟨[.expr e]⟩) (free : Uncommented source)
    (lexed : Lexer.tokenize source = .ok ls)
    (holes : ∀ l ∈ ls, ∀ hole ∈ l.token.holes, Lexer.Unnoticed hole.1) :
    (∃ p, Lexer.tokenize (embed source) =
      .ok [⟨.str [.placeholder source ⟨1, 4⟩], .start⟩, ⟨.eof, p⟩]) ∧
    ((∃ e', Script.parse (embed source) = .ok ⟨[.expr (.interpolated [.hole e'] .start)]⟩ ∧
      e'.bare = e.bare) ∨
    ∃ err, Script.parse (embed source) = .error err ∧ err.fault = .tooDeep maxNesting) := by
  have closed : Lexer.scan 0 none source.toList = some (0, none) := by
    obtain ⟨ls', lexed', read⟩ := bind_eq_ok.1 parsed
    cases lexed.symm.trans lexed'
    refine Lexer.scan_of_tokens lexed (Nat.lt_succ_self _) rfl free holes ?_
    obtain ⟨ls, rest, rfl, derived, finish⟩ := Parser.script_ok read
    rw [derived.balanced]
    cases rest with
    | nil => rfl
    | cons l rest => rw [Lexer.bracesAll, if_pos (finish l rfl)]
  obtain ⟨p, relexed⟩ := Lexer.tokenize_embed closed
  refine ⟨⟨p, relexed⟩, ?_⟩
  have again : Script.parse (embed source) = _ := congrArg (· >>= Parser.script) relexed
  have hole := Parser.hole_of_parse (show 62 ≤ 63 by decide) ⟨1, 4⟩ parsed
  have read : Script.parse (embed source) = (Parser.hole (.ofNat 62) source ⟨1, 4⟩).map fun e' =>
      ⟨[.expr (.interpolated [.hole e'] .start)]⟩ := by
    refine again.trans ((Parser.script_alone _ _ p).trans ?_)
    change Except.map _ ((Parser.hole (.ofNat 62) source ⟨1, 4⟩ >>= _) >>= _) = _
    cases Parser.hole (.ofNat 62) source ⟨1, 4⟩ <;> rfl
  rw [read]
  generalize Parser.hole (.ofNat 62) source ⟨1, 4⟩ = r at hole
  cases hole with
  | @ok _ e' same => exact .inl ⟨e', rfl, same.symm⟩
  | tooDeep _ deep => exact .inr ⟨_, rfl, deep⟩

set_option maxRecDepth 2000 in
/-- A map, in it a string with a brace, and in that a placeholder that has a string of its own. -/
theorem parse_embed_map :
    let source := "\x7ba: \"#\x7bm[\"k\"]\x7d\x7d\"\x7d"
    let item := Expr.index (.ident "m" ⟨1, 8⟩) (.literal (.str "k") ⟨1, 10⟩) ⟨1, 9⟩
    let text := Expr.interpolated [.hole item, .text "\x7d"] ⟨1, 5⟩
    let e := Expr.map [.mk "a" text ⟨1, 2⟩] ⟨1, 1⟩
    let ls : List Lexeme := [⟨.lbrace, ⟨1, 1⟩⟩, ⟨.ident "a", ⟨1, 2⟩⟩, ⟨.colon, ⟨1, 3⟩⟩,
      ⟨.str [.placeholder "m[\"k\"]" ⟨1, 8⟩, .text "\x7d"], ⟨1, 5⟩⟩, ⟨.rbrace, ⟨1, 17⟩⟩,
      ⟨.eof, ⟨1, 18⟩⟩]
    Script.parse source = .ok ⟨[.expr e]⟩ ∧ Uncommented source ∧
      Lexer.tokenize source = .ok ls ∧
      (∀ l ∈ ls, ∀ hole ∈ l.token.holes, Lexer.Unnoticed hole.1) ∧
      ∃ e', Script.parse (embed source) = .ok ⟨[.expr (.interpolated [.hole e'] .start)]⟩ ∧
        e'.bare = e.bare := by
  intro source item text e ls
  have parsed : Script.parse source = .ok ⟨[.expr e]⟩ := by cbv
  have free : Uncommented source := by cbv
  have lexed : Lexer.tokenize source = .ok ls := by cbv
  have holes : ∀ l ∈ ls, ∀ hole ∈ l.token.holes, Lexer.Unnoticed hole.1 := by
    simp only [ls, List.forall_mem_cons]
    simp [Token.holes, Segment.hole?]
    rfl
  refine ⟨parsed, free, lexed, holes, ?_⟩
  rcases (parse_embed parsed free lexed holes).2 with read | ⟨err, failed, -⟩
  · exact read
  · have succeeds : (Script.parse (embed source)).isOk = true := by cbv
    rw [failed] at succeeds
    cases succeeds

set_option maxRecDepth 2000 in
/-- Where a placeholder has a string with a brace in it, that brace is taken for the one that closes
the placeholder around it. -/
theorem not_parse_embed :
    ¬ ∀ (source : String) (e : Expr), Script.parse source = .ok ⟨[.expr e]⟩ →
      Uncommented source → '\n' ∉ source.toList →
      (∃ e', Script.parse (embed source) = .ok ⟨[.expr (.interpolated [.hole e'] .start)]⟩ ∧
        e'.bare = e.bare) ∨
      ∃ err, Script.parse (embed source) = .error err ∧ err.fault = .tooDeep maxNesting := by
  intro all
  let source := "\"#\x7b \"\x7d\" \x7d\""
  let e := Expr.interpolated [.hole (.literal (.str "\x7d") ⟨1, 5⟩)] ⟨1, 1⟩
  have parsed : Script.parse source = .ok ⟨[.expr e]⟩ := by cbv
  have free : Uncommented source := by cbv
  have oneLine : '\n' ∉ source.toList := by decide
  have failed : Script.parse (embed source) =
      .error ⟨.unterminatedPlaceholder, ⟨1, 5⟩, some "`#\x7b`"⟩ := by cbv
  rcases all source e parsed free oneLine with ⟨e', read, -⟩ | ⟨err, read, deep⟩
  · cases failed.symm.trans read
  · cases failed.symm.trans read
    cases deep

end Script
end WidgetScript
