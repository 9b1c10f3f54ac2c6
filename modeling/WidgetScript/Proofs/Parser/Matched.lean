import WidgetScript.Proofs.Parser.Sound
import WidgetScript.Proofs.Token.Scan

/-! Whatever the grammar derives has its brackets in pairs, where `def`, `if` and `do` are brackets
that `end` closes. Each source of a placeholder in it is derived in its turn. -/
namespace WidgetScript

def Token.single : Token → Bool
  | .lparen | .rparen | .lbracket | .rbracket | .lbrace | .rbrace => false
  | .defKw | .ifKw | .elseKw | .doKw | .endKw | .eof => false
  | _ => true

inductive Token.Pair : Token → Token → Prop where
  | parens : Pair .lparen .rparen
  | brackets : Pair .lbracket .rbracket
  | braces : Pair .lbrace .rbrace
  | define : Pair .defKw .endKw
  | cond : Pair .ifKw .endKw
  | doEnd : Pair .doKw .endKw

namespace Parser

def Derivable (hole : String × Position) : Prop :=
  ∃ n e ls rest, Lexer.tokenizeAt hole.1 hole.2 = .ok (ls ++ rest) ∧ Derives n (.padded e) ls ∧
    ∀ l ∈ rest.head?, l.token = .eof

/-- Each bracket that opens is closed by its own, and no other. -/
inductive Matched : List Lexeme → Prop where
  | nil : Matched []
  | single {t : Token} {p : Position} :
      t.single → (∀ hole ∈ t.holes, Derivable hole) → Matched [⟨t, p⟩]
  | append {ls ls' : List Lexeme} : Matched ls → Matched ls' → Matched (ls ++ ls')
  | pair {t t' : Token} {p q : Position} {ls : List Lexeme} :
      t.Pair t' → Matched ls → Matched (⟨t, p⟩ :: (ls ++ [⟨t', q⟩]))
  | condElse {p q r : Position} {ls ls' : List Lexeme} :
      Matched ls → Matched ls' →
      Matched (⟨.ifKw, p⟩ :: (ls ++ ⟨.elseKw, q⟩ :: (ls' ++ [⟨.endKw, r⟩])))

namespace Matched
variable {t t' : Token} {p q : Position} {ls rest : List Lexeme}

theorem cons (single : t.single) (holes : ∀ hole ∈ t.holes, Derivable hole) (h : Matched ls) :
    Matched (⟨t, p⟩ :: ls) := (Matched.single single holes).append h

theorem plain (single : t.single) (none : t.holes = []) (h : Matched ls) :
    Matched (⟨t, p⟩ :: ls) :=
  h.cons single (none ▸ List.forall_mem_nil _)

theorem blank (h : Blank ls) : Matched ls := by
  induction ls with
  | nil => exact .nil
  | cons l ls ih =>
    obtain ⟨token, p⟩ := l
    obtain ⟨first, rest⟩ := List.forall_mem_cons.1 h
    cases first
    exact .plain rfl rfl (ih rest)

theorem forall_mem (h : Matched ls) :
    ∀ l ∈ ls, l.token ≠ .eof ∧ ∀ hole ∈ l.token.holes, Derivable hole := by
  have keyword {t : Token} {p : Position} (notEnd : t ≠ .eof) (none : t.holes = []) :
      ∀ l ∈ [(⟨t, p⟩ : Lexeme)], l.token ≠ .eof ∧ ∀ hole ∈ l.token.holes, Derivable hole :=
    List.forall_mem_singleton.2 ⟨notEnd, none ▸ List.forall_mem_nil _⟩
  induction h with
  | nil => exact List.forall_mem_nil _
  | single single holes =>
    refine List.forall_mem_singleton.2 ⟨?_, holes⟩
    rintro rfl
    cases single
  | append _ _ ih ih' => exact List.forall_mem_append.2 ⟨ih, ih'⟩
  | @pair t t' p q ls pair _ ih =>
    rw [← List.singleton_append, List.forall_mem_append, List.forall_mem_append]
    cases pair <;> exact ⟨keyword nofun rfl, ih, keyword nofun rfl⟩
  | @condElse p q r ls ls' _ _ ih ih' =>
    rw [← List.singleton_append, ← List.singleton_append (l := ls' ++ _)]
    simp only [List.forall_mem_append]
    exact ⟨keyword nofun rfl, ih, keyword nofun rfl, ih', keyword nofun rfl⟩

end Matched

theorem Names.matched {seen names : List String} {ls : List Lexeme} (h : Names seen names ls) :
    Matched ls := by
  induction h with
  | nil => exact .nil
  | last _ blank => exact .plain rfl rfl (.blank blank)
  | cons _ before behind _ ih =>
    exact .plain rfl rfl (.append (.blank before) (.plain rfl rfl (.append (.blank behind) ih)))

theorem Params.matched {names : List String} {ls : List Lexeme} (h : Params names ls) :
    Matched ls := by
  cases h with
  | none => exact .nil
  | @some _ p q nl ls blank listed =>
    rw [← List.append_assoc]
    exact .pair .parens (.append (.blank blank) listed.matched)

theorem holes_of_plainText? {segments : List Segment} {text : String}
    (h : plainText? segments = some text) : segments.filterMap Segment.hole? = [] := by
  induction segments generalizing text with
  | nil => rfl
  | cons segment segments ih =>
    cases segment with
    | text t =>
      obtain ⟨_, rest, -⟩ := Option.map_eq_some_iff.1 h
      exact ih rest
    | placeholder => cases h

/-- By induction on the pieces of the string. -/
theorem derivable_of_parts {n : Nat} {segments : List Segment} {ps : List Part}
    (h : Derives n (.parts segments ps) []) :
    ∀ hole ∈ segments.filterMap Segment.hole?, Derivable hole := by
  induction segments generalizing ps with
  | nil => exact List.forall_mem_nil _
  | cons segment segments ih =>
    cases h with
    | textPart rest => exact ih rest
    | holePart lexed value finish rest =>
      exact List.forall_mem_cons.2 ⟨⟨_, _, _, _, lexed, value, finish⟩, ih rest⟩

theorem Derives.matched {n : Nat} {phrase : Phrase} {ls : List Lexeme} (h : Derives n phrase ls) :
    Matched ls := by
  induction h with
  | @literal _ value =>
    cases value with
    | bool b => cases b <;> exact .plain rfl rfl .nil
    | _ => exact .plain rfl rfl .nil
  | text plain => exact .plain rfl (holes_of_plainText? plain) .nil
  | interpolated parts => exact .single rfl (derivable_of_parts parts)
  | ident | symbol => exact .plain rfl rfl .nil
  | list _ ih => exact .pair .brackets ih
  | map _ ih => exact .pair .braces ih
  | call _ _ ihRow ihBlock =>
    rw [List.append_cons, ← List.cons_append]
    exact .plain rfl rfl (.append (.pair .parens ihRow) ihBlock)
  | doCall _ ih => exact .plain rfl rfl ih
  | parens _ ih => exact .pair .parens ih
  | index _ _ ihTarget ihKey => exact .append ihTarget (.pair .brackets ihKey)
  | field _ ih => exact .append ih (.plain rfl rfl (.plain rfl rfl .nil))
  | @unary _ _ t _ _ _ op _ ih =>
    cases t <;> first | exact .plain rfl rfl ih | cases op
  | @binary _ op _ _ _ _ _ _ _ blank _ ihLhs ihRhs =>
    refine .append ihLhs ?_
    cases op <;> exact .plain rfl rfl (.append (.blank blank) ihRhs)
  | weaken _ ih | whole _ ih | body _ ih | expr _ ih | positional _ _ ih => exact ih
  | padded before _ behind ih => exact .append (.blank before) (.append ih (.blank behind))
  | noParts | noBlock | textPart | holePart => exact .nil
  | keyword _ blank key _ ih =>
    refine .append (.blank blank) ?_
    rcases key with rfl | ⟨-, rfl⟩ <;> exact .plain rfl rfl (.plain rfl rfl ih)
  | noElements blank | noStmts blank => exact .blank blank
  | lastElement _ _ ih => exact ih
  | elements _ _ _ ihFirst ihRest => exact .append ihFirst (.plain rfl rfl ihRest)
  | @block _ d _ _ _ _ _ ih =>
    cases d with
    | doEnd => exact .pair .doEnd ih
    | braces => exact .pair .braces ih
  | assign blank _ ih => exact .plain rfl rfl (.plain rfl rfl (.append (.blank blank) ih))
  | define params _ ih =>
    rw [← List.append_assoc, ← List.cons_append]
    exact .pair .define (.plain rfl rfl (.append params.matched ih))
  | cond _ _ ihTest ihYes =>
    rw [← List.append_assoc]
    exact .pair .cond (.append ihTest ihYes)
  | condElse _ _ _ ihTest ihYes ihNo =>
    rw [← List.append_assoc]
    exact .condElse (.append ihTest ihYes) ihNo
  | lastStmt blank _ ih => exact .append (.blank blank) ih
  | stmts blank _ _ ihFirst ihRest =>
    exact .append (.blank blank) (.append ihFirst (.plain rfl rfl ihRest))

end Parser
end WidgetScript
