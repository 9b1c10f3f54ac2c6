import WidgetScript.Proofs.Token.Shift

/-! One text in two places. It has the same tokens in both, with the same sources in their
placeholders, and only where these stand is different. -/
namespace WidgetScript

def Segment.bare : Segment → Segment
  | .text t => .text t
  | .placeholder source _ => .placeholder source .none

/-- The tokens are the same but for the places of their placeholders. -/
inductive Token.Alike : Token → Token → Prop where
  | same (t : Token) : Alike t t
  | str {ss ss' : List Segment} :
      ss.map Segment.bare = ss'.map Segment.bare → Alike (.str ss) (.str ss')

theorem Token.Alike.eq_iff {token token' t : Token} (h : token.Alike token')
    (plain : ∀ ss, t ≠ .str ss) : token = t ↔ token' = t := by
  cases h with
  | same => rfl
  | str => simp [(plain _).symm]

def Lexeme.Alike (l l' : Lexeme) : Prop := l.token.Alike l'.token

namespace Shift

def anywhere : Shift where
  rel _ _ := True
  advance _ _ := trivial

theorem Tokens.alike {t t' : Token} (h : anywhere.Tokens t t') : t.Alike t' := by
  cases h with
  | plain => exact .same t
  | str same =>
    refine .str ?_
    induction same with
    | nil => rfl
    | cons first _ ih => cases first <;> simp only [List.map_cons, Segment.bare, ih]

end Shift

theorem Lexer.tokenizeAt_alike (source : String) (origin origin' : Position) :
    Shift.anywhere.Outcomes (List.Forall₂ Lexeme.Alike) (tokenizeAt source origin)
      (tokenizeAt source origin') := by
  have start : Shift.anywhere.rel origin origin' := trivial
  exact (tokens_shift _ .none (.ahead source.toList start)).mono fun ls ls' same =>
    same.imp fun l l' h => h.token.alike

end WidgetScript
