import Mathlib
import WidgetScript.Proofs.Parser.Matched
import WidgetScript.Proofs.Token.Row

/-! What is open in a list of tokens is kept on a stack. Over the tokens of a script that parses,
and of each placeholder in it, only what is open innermost is closed, and in the end nothing is
open. -/
namespace WidgetScript

/-- What has been opened. Of a condition it counts whether its other branch has begun. -/
inductive Bracket where
  | paren
  | square
  | brace
  | define
  | block
  | cond (other : Bool)
deriving DecidableEq, Repr

namespace Bracket

/-- What is open behind a token, the innermost first, or nothing if the token may not be there. -/
def step (stack : List Bracket) (token : Token) : Option (List Bracket) :=
  match token, stack with
  | .lparen, _ => some (.paren :: stack)
  | .lbracket, _ => some (.square :: stack)
  | .lbrace, _ => some (.brace :: stack)
  | .defKw, _ => some (.define :: stack)
  | .doKw, _ => some (.block :: stack)
  | .ifKw, _ => some (.cond false :: stack)
  | .rparen, .paren :: stack => some stack
  | .rbracket, .square :: stack => some stack
  | .rbrace, .brace :: stack => some stack
  | .endKw, .define :: stack => some stack
  | .endKw, .block :: stack => some stack
  | .endKw, .cond _ :: stack => some stack
  | .elseKw, .cond false :: stack => some (.cond true :: stack)
  | .eof, [] => some []
  | .rparen, _ | .rbracket, _ | .rbrace, _ | .endKw, _ | .elseKw, _ | .eof, _ => none
  | _, _ => some stack

def run (stack : List Bracket) (ls : List Lexeme) : Option (List Bracket) :=
  ls.foldlM (fun stack l => step stack l.token) stack

theorem run_cons (stack : List Bracket) (l : Lexeme) (ls : List Lexeme) :
    run stack (l :: ls) = (step stack l.token).bind (run · ls) := List.foldlM_cons

theorem run_append (stack : List Bracket) (ls ls' : List Lexeme) :
    run stack (ls ++ ls') = (run stack ls).bind (run · ls') := List.foldlM_append

theorem run_singleton (stack : List Bracket) (l : Lexeme) : run stack [l] = step stack l.token := by
  rw [run_cons]
  exact Option.bind_fun_some _

theorem step_pair {t t' : Token} (pair : t.Pair t') (stack : List Bracket) :
    ∃ b, step stack t = some (b :: stack) ∧ step (b :: stack) t' = some stack := by
  cases pair <;> exact ⟨_, rfl, rfl⟩

end Bracket

def Bracketed (ls : List Lexeme) : Prop := Bracket.run [] ls = some []

instance : DecidablePred Bracketed := fun _ => inferInstanceAs (Decidable (_ = _))

example : ¬ Bracketed [⟨.lparen, .start⟩, ⟨.rbracket, .start⟩, ⟨.eof, .start⟩] := by decide

namespace Parser

theorem Matched.run {ls : List Lexeme} (h : Matched ls) (stack : List Bracket) :
    Bracket.run stack ls = some stack := by
  induction h generalizing stack with
  | nil => rfl
  | @single t _ single =>
    rw [Bracket.run_singleton]
    cases t <;> first | rfl | cases single
  | append _ _ ih ih' => rw [Bracket.run_append, ih, Option.bind_some, ih']
  | pair pair _ ih =>
    obtain ⟨b, opened, closed⟩ := Bracket.step_pair pair stack
    rw [Bracket.run_cons, opened, Option.bind_some, Bracket.run_append, ih, Option.bind_some,
      Bracket.run_singleton, closed]
  | condElse _ _ ih ih' =>
    rw [Bracket.run_cons]
    change Bracket.run (.cond false :: stack) _ = _
    rw [Bracket.run_append, ih, Option.bind_some, Bracket.run_cons]
    change Bracket.run (.cond true :: stack) _ = _
    rw [Bracket.run_append, ih', Option.bind_some, Bracket.run_singleton]
    rfl

end Parser

namespace Lexer

/-- The second tokens are the first, or those of a placeholder inside of them, at any depth. -/
inductive Inside (tokens : List Lexeme) : List Lexeme → Prop where
  | refl : Inside tokens tokens
  | hole {ls ls' : List Lexeme} {l : Lexeme} {source : String} {p : Position} :
      Inside tokens ls → l ∈ ls → (source, p) ∈ l.token.holes →
      tokenizeAt source p = .ok ls' → Inside tokens ls'

end Lexer

namespace Parser
open Lexer

theorem Matched.closed {source : String} {origin : Position} {ls rest : List Lexeme}
    (lexed : tokenizeAt source origin = .ok (ls ++ rest)) (h : Matched ls)
    (finish : ∀ l ∈ rest.head?, l.token = .eof) : ∃ p, rest = [⟨.eof, p⟩] := by
  obtain ⟨init, p, same, none⟩ := tokenizeAt_eof lexed
  cases rest with
  | nil =>
    have last : (⟨.eof, p⟩ : Lexeme) ∈ ls := by
      rw [← List.append_nil ls, same]
      exact List.mem_append_right _ List.mem_cons_self
    exact absurd rfl (h.forall_mem _ last).1
  | cons l rest =>
    have first := finish l rfl
    rcases List.eq_nil_or_concat rest with rfl | ⟨behind, l', rfl⟩
    · exact ⟨p, List.append_inj_right' same rfl⟩
    · rw [List.concat_eq_append, ← List.cons_append, ← List.append_assoc] at same
      obtain rfl := List.append_inj_left' same rfl
      exact absurd first (none l (List.mem_append_right _ List.mem_cons_self))

def Accepted (ls : List Lexeme) : Prop := ∃ init p, ls = init ++ [⟨.eof, p⟩] ∧ Matched init

namespace Accepted
variable {ls ls' : List Lexeme} {l : Lexeme}

theorem bracketed (h : Accepted ls) : Bracketed ls := by
  obtain ⟨init, p, rfl, matched⟩ := h
  rw [Bracketed, Bracket.run_append, matched.run, Option.bind_some]
  rfl

theorem hole {hole : String × Position} (h : Accepted ls) (mem : l ∈ ls)
    (mem' : hole ∈ l.token.holes) :
    ∃ ls', tokenizeAt hole.1 hole.2 = .ok ls' ∧ Accepted ls' := by
  obtain ⟨init, p, rfl, matched⟩ := h
  rcases List.mem_append.1 mem with mem | mem
  · obtain ⟨n, e, ls, rest, lexed, derived, finish⟩ := (matched.forall_mem l mem).2 hole mem'
    obtain ⟨q, rfl⟩ := derived.matched.closed lexed finish
    exact ⟨_, lexed, ls, q, rfl, derived.matched⟩
  · obtain rfl := List.mem_singleton.1 mem
    exact absurd mem' List.not_mem_nil

theorem inside (h : Accepted ls) (inside : Inside ls ls') : Accepted ls' := by
  induction inside with
  | refl => exact h
  | hole _ mem mem' lexed ih =>
    obtain ⟨ls'', lexed', accepted⟩ := ih.hole mem mem'
    cases lexed.symm.trans lexed'
    exact accepted

end Accepted
end Parser

/-- By induction on how the tokens are inside. -/
theorem Script.parse_bracketed {source : String} {script : Script}
    (h : Script.parse source = .ok script) :
    ∃ tokens, Lexer.tokenize source = .ok tokens ∧ ∀ ls, Lexer.Inside tokens ls →
      Bracketed ls ∧
        ∀ l ∈ ls, ∀ hole ∈ l.token.holes, ∃ ls', Lexer.tokenizeAt hole.1 hole.2 = .ok ls' := by
  obtain ⟨tokens, lexed, read⟩ := bind_eq_ok.1 h
  obtain ⟨ls, rest, rfl, derived, finish⟩ := Parser.script_ok read
  obtain ⟨p, rfl⟩ := derived.matched.closed lexed finish
  refine ⟨_, lexed, fun ls' inside => ?_⟩
  have accepted := Parser.Accepted.inside ⟨ls, p, rfl, derived.matched⟩ inside
  refine ⟨accepted.bracketed, fun l mem hole mem' => ?_⟩
  obtain ⟨ls'', lexed', -⟩ := accepted.hole mem mem'
  exact ⟨ls'', lexed'⟩

set_option maxRecDepth 2000 in
/-- A condition with its other branch, in it a string whose placeholder has a string of its own. -/
theorem Script.parse_bracketed_nested :
    let source := "if a\n\"#\x7bm[\"#\x7b(x)\x7d\"]\x7d\"\nelse\n[]\nend"
    let hole : List Lexeme := [⟨.lparen, ⟨2, 9⟩⟩, ⟨.ident "x", ⟨2, 10⟩⟩, ⟨.rparen, ⟨2, 11⟩⟩,
      ⟨.eof, ⟨2, 12⟩⟩]
    ∃ script tokens, Script.parse source = .ok script ∧ Lexer.tokenize source = .ok tokens ∧
      Lexer.Inside tokens hole ∧ Bracketed tokens ∧ Bracketed hole := by
  intro source hole
  let condition : List Lexeme := [⟨.ifKw, ⟨1, 1⟩⟩, ⟨.ident "a", ⟨1, 4⟩⟩, ⟨.newline, ⟨1, 5⟩⟩,
    ⟨.str [.placeholder "m[\"#\x7b(x)\x7d\"]" ⟨2, 4⟩], ⟨2, 1⟩⟩, ⟨.newline, ⟨2, 17⟩⟩,
    ⟨.elseKw, ⟨3, 1⟩⟩, ⟨.newline, ⟨3, 5⟩⟩, ⟨.lbracket, ⟨4, 1⟩⟩, ⟨.rbracket, ⟨4, 2⟩⟩,
    ⟨.newline, ⟨4, 3⟩⟩, ⟨.endKw, ⟨5, 1⟩⟩, ⟨.eof, ⟨5, 4⟩⟩]
  let item : List Lexeme := [⟨.ident "m", ⟨2, 4⟩⟩, ⟨.lbracket, ⟨2, 5⟩⟩,
    ⟨.str [.placeholder "(x)" ⟨2, 9⟩], ⟨2, 6⟩⟩, ⟨.rbracket, ⟨2, 14⟩⟩, ⟨.eof, ⟨2, 15⟩⟩]
  have parsed : (Script.parse source).isOk = true := by cbv
  have lexed : Lexer.tokenize source = .ok condition := by cbv
  have item_lexed : Lexer.tokenizeAt "m[\"#\x7b(x)\x7d\"]" ⟨2, 4⟩ = .ok item := by cbv
  have hole_lexed : Lexer.tokenizeAt "(x)" ⟨2, 9⟩ = .ok hole := by cbv
  have inside : Lexer.Inside condition item :=
    .hole (l := ⟨.str [.placeholder "m[\"#\x7b(x)\x7d\"]" ⟨2, 4⟩], ⟨2, 1⟩⟩) .refl
      (by simp [condition]) List.mem_cons_self item_lexed
  have inside : Lexer.Inside condition hole :=
    .hole (l := ⟨.str [.placeholder "(x)" ⟨2, 9⟩], ⟨2, 6⟩⟩) inside (by simp [item])
      List.mem_cons_self hole_lexed
  obtain ⟨script, read⟩ : ∃ script, Script.parse source = .ok script := by
    cases read : Script.parse source with
    | ok script => exact ⟨script, rfl⟩
    | error e =>
      rw [read] at parsed
      cases parsed
  obtain ⟨tokens, lexed', bracketed⟩ := Script.parse_bracketed read
  cases lexed.symm.trans lexed'
  exact ⟨script, condition, read, lexed, inside, (bracketed _ .refl).1, (bracketed _ inside).1⟩

end WidgetScript
