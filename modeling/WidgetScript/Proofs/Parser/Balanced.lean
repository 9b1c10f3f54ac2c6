import WidgetScript.Proofs.Parser.Matched

/-! Braces match in whatever the grammar derives, so the search for the end of a placeholder counts
as many open ones behind it as before it. -/
namespace WidgetScript

def Token.neutral : Token → Bool
  | .eof | .lbrace | .rbrace => false
  | _ => true

namespace Parser
open Lexer

/-- Over the tokens each brace that opens is closed, and no other. -/
def Balanced (ls : List Lexeme) : Prop :=
  ∀ depth rest, bracesAll depth (ls ++ rest) = bracesAll depth rest

namespace Balanced
variable {t : Token} {p q : Position} {ls ls' : List Lexeme}

theorem nil : Balanced [] := fun _ _ => rfl

theorem append (h : Balanced ls) (h' : Balanced ls') : Balanced (ls ++ ls') := by
  intro depth rest
  rw [List.append_assoc, h, h']

theorem cons (neutral : t.neutral) (h : Balanced ls) : Balanced (⟨t, p⟩ :: ls) := by
  intro depth rest
  have notEnd : t ≠ .eof := by
    rintro rfl
    cases neutral
  have same : braces depth t = some depth := by cases t <;> first | rfl | cases neutral
  rw [List.cons_append, bracesAll, if_neg notEnd, same]
  exact h depth rest

theorem braced (h : Balanced ls) : Balanced (⟨.lbrace, p⟩ :: (ls ++ [⟨.rbrace, q⟩])) := by
  intro depth rest
  rw [List.cons_append, List.append_assoc, bracesAll, if_neg (by simp)]
  change bracesAll (depth + 1) (ls ++ ([⟨.rbrace, q⟩] ++ rest)) = _
  rw [h, List.singleton_append, bracesAll, if_neg (by simp)]
  rfl

theorem enclosed {t' : Token} (neutral : t.neutral) (neutral' : t'.neutral) (h : Balanced ls) :
    Balanced (⟨t, p⟩ :: (ls ++ [⟨t', q⟩])) :=
  cons neutral (h.append (cons neutral' nil))

end Balanced

theorem Matched.balanced {ls : List Lexeme} (h : Matched ls) : Balanced ls := by
  induction h with
  | nil => exact .nil
  | @single t _ single =>
    refine .cons ?_ .nil
    cases t <;> first | rfl | cases single
  | append _ _ ih ih' => exact .append ih ih'
  | pair pair _ ih =>
    cases pair with
    | braces => exact .braced ih
    | _ => exact .enclosed rfl rfl ih
  | condElse _ _ ih ih' => exact .cons rfl (.append ih (.enclosed rfl rfl ih'))

theorem Derives.balanced {n : Nat} {phrase : Phrase} {ls : List Lexeme}
    (h : Derives n phrase ls) : Balanced ls := h.matched.balanced

end Parser
end WidgetScript
