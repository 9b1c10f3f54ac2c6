import Mathlib
import WidgetScript.Proofs.Token.Scan

/-! The tokens of a text as a row. Blank lines, and those before the first token, have left no
trace in it, and it ends with the one token that stands for the end of input. -/
namespace WidgetScript

namespace Laid
variable {lo hi : Position} {ls : List Lexeme}

theorem le_pos (h : Laid lo ls hi) : ∀ l ∈ ls, lo ≤ l.pos := by
  induction h with
  | nil => exact List.forall_mem_nil _
  | cons first before holed _ ih =>
    refine List.forall_mem_cons.2 ⟨first, fun l hl => ?_⟩
    exact first.trans (before.le.trans (holed.le.trans (ih l hl)))

theorem ascending (h : Laid lo ls hi) : ls.Pairwise fun a b => a.pos < b.pos := by
  induction h with
  | nil => exact .nil
  | cons _ before holed rest ih =>
    exact .cons (fun l hl => before.trans_le (holed.le.trans (rest.le_pos l hl))) ih

end Laid

namespace Lexer

theorem tokens_eof {fuel : Nat} {prev : Option Token} {s : Cursor} {ls : List Lexeme}
    (h : tokens fuel prev s = .ok ls) (room : s.rest.length < fuel) :
    ∃ init p, ls = init ++ [⟨.eof, p⟩] ∧ ∀ l ∈ init, l.token ≠ .eof := by
  induction fuel generalizing prev s ls with
  | zero => exact absurd room (Nat.not_lt_zero _)
  | succ fuel ih =>
    obtain ⟨_, skipped⟩ := skipBlanks_passes false s.rest s.pos
    have shorter : (skipBlanks false s.rest s.pos).rest.length ≤ s.rest.length := by
      have parts : s.rest.length = _ := congrArg List.length skipped.1
      rw [parts, List.length_append]
      exact Nat.le_add_left _ _
    rw [tokens] at h
    dsimp only at h
    generalize skipBlanks false s.rest s.pos = s₁ at h shorter
    obtain ⟨⟨t, s₂⟩, token, h⟩ := bind_eq_ok.1 h
    dsimp only at h
    split at h
    next =>
      cases h
      exact ⟨[], _, rfl, List.forall_mem_nil _⟩
    next notEnd =>
      have behind : s₂.rest.length < fuel := by
        have := length_of_takes (next_takes token notEnd)
        omega
      split at h
      next => exact ih h behind
      next =>
        obtain ⟨rest, more, h⟩ := bind_eq_ok.1 h
        cases h
        obtain ⟨init, p, rfl, none⟩ := ih more behind
        exact ⟨_ :: init, p, rfl, List.forall_mem_cons.2 ⟨notEnd, none⟩⟩

theorem tokenizeAt_eof {source : String} {origin : Position} {ls : List Lexeme}
    (h : tokenizeAt source origin = .ok ls) :
    ∃ init p, ls = init ++ [⟨.eof, p⟩] ∧ ∀ l ∈ init, l.token ≠ .eof :=
  tokens_eof h (Nat.lt_succ_self _)

theorem tokens_separate {fuel : Nat} {prev : Option Token} {s : Cursor} {ls : List Lexeme}
    (h : tokens fuel prev s = .ok ls) :
    (prev = none ∨ prev = some .newline → ∀ l, ls.head? = some l → l.token ≠ .newline) ∧
      ls.IsChain fun a b => ¬(a.token = .newline ∧ b.token = .newline) := by
  induction fuel generalizing prev s ls with
  | zero =>
    cases h
    refine ⟨fun _ l first => ?_, .nil⟩
    cases first
  | succ fuel ih =>
    rw [tokens] at h
    dsimp only at h
    obtain ⟨⟨t, s'⟩, -, h⟩ := bind_eq_ok.1 h
    dsimp only at h
    split at h
    next =>
      cases h
      refine ⟨fun _ l first => ?_, .singleton _⟩
      cases first
      exact Token.noConfusion
    next =>
      split at h
      next skipped => exact ih h
      next kept =>
        obtain ⟨rest, more, h⟩ := bind_eq_ok.1 h
        cases h
        obtain ⟨apart, chain⟩ := ih more
        refine ⟨fun open_ l first => ?_, List.isChain_cons.2 ⟨fun l hl both => ?_, chain⟩⟩
        · cases first
          exact fun line => kept ⟨line, open_⟩
        · exact apart (.inr (congrArg some both.1)) l hl both.2

/-- What a parser can rely on that looks at one token after the other. -/
structure Orderly (ls : List Lexeme) : Prop where
  closed : ∃ init p, ls = init ++ [⟨.eof, p⟩] ∧ ∀ l ∈ init, l.token ≠ .eof
  leading : ∀ l, ls.head? = some l → l.token ≠ .newline
  separate : ls.IsChain fun a b => ¬(a.token = .newline ∧ b.token = .newline)
  ascending : ls.Pairwise fun a b => a.pos < b.pos

theorem tokenizeAt_orderly {source : String} {origin : Position} {ls : List Lexeme}
    (h : tokenizeAt source origin = .ok ls) : Orderly ls where
  closed := tokenizeAt_eof h
  leading := (tokens_separate h).1 (.inl rfl)
  separate := (tokens_separate h).2
  ascending := (tokenizeAt_laid h (Position.lt_advance _ '\n')).ascending

/-- Blank lines, separators, a comment, an escaped line end and a string over two lines. -/
theorem tokenizeAt_orderly_lines :
    let source := "\n;# a\n\nx = \\\n'b\nc';\n ;y\n"
    let ls : List Lexeme := [⟨.ident "x", ⟨4, 1⟩⟩, ⟨.assign, ⟨4, 3⟩⟩,
      ⟨.str [.text "b\nc"], ⟨5, 1⟩⟩, ⟨.newline, ⟨6, 3⟩⟩, ⟨.ident "y", ⟨7, 3⟩⟩,
      ⟨.newline, ⟨7, 4⟩⟩, ⟨.eof, ⟨8, 1⟩⟩]
    tokenizeAt source .start = .ok ls ∧ Orderly ls := by
  intro source ls
  have lexed : tokenizeAt source .start = .ok ls := by cbv
  exact ⟨lexed, tokenizeAt_orderly lexed⟩

end Lexer
end WidgetScript
