import WidgetScript.Proofs.Token.Shift

/-! A text that begins within another. Its lines are counted on from the line of its origin, and
its columns only as long as it is in that line. -/
namespace WidgetScript

/-- Where the place of a text is in the text around it, in which it begins at the origin. -/
def Position.within (origin p : Position) : Position :=
  ⟨p.line + origin.line - 1, if p.line = 1 then p.column + origin.column - 1 else p.column⟩

def Segment.relocate (f : Position → Position) : Segment → Segment
  | .text t => .text t
  | .placeholder source p => .placeholder source (f p)

def Token.relocate (f : Position → Position) : Token → Token
  | .str ss => .str (ss.map (Segment.relocate f))
  | t => t

def Lexeme.relocate (f : Position → Position) (l : Lexeme) : Lexeme :=
  ⟨l.token.relocate f, f l.pos⟩

def SyntaxError.relocate (f : Position → Position) (e : SyntaxError) : SyntaxError :=
  { e with pos := f e.pos }

theorem Token.relocate_eq_self {f : Position → Position} {t : Token} (plain : t.holes = []) :
    t.relocate f = t := by
  cases t with
  | str ss =>
    have same : ∀ s ∈ ss, s.relocate f = s := by
      intro s hs
      have none := List.filterMap_eq_nil_iff.1 plain s hs
      cases s with
      | text => rfl
      | placeholder => cases none
    exact congrArg Token.str ((List.map_congr_left same).trans (List.map_id ss))
  | _ => rfl

namespace Shift
variable {origin : Position}

/-- Where lines and columns are counted from one, a place within another text is behind what it is
behind in its own. -/
def within (origin : Position) : Shift where
  rel p q := 1 ≤ p.line ∧ 1 ≤ p.column ∧ q = origin.within p
  advance := by
    rintro p q c ⟨line, column, rfl⟩
    unfold Position.advance Position.within
    split
    · have behind : p.line + 1 ≠ 1 := by omega
      have lines : p.line + origin.line - 1 + 1 = p.line + 1 + origin.line - 1 := by omega
      rw [if_neg behind, ← lines]
      exact ⟨Nat.le_add_left 1 _, Nat.le_refl 1, rfl⟩
    · refine ⟨line, Nat.le_add_left 1 _, congrArg (Position.mk _) ?_⟩
      dsimp only
      split <;> omega

theorem eq_map {α : Type} {related : α → α → Prop} {f : α → α} {as as' : List α}
    (each : ∀ a a', related a a' → a' = f a) (h : List.Forall₂ related as as') :
    as' = as.map f := by
  have same : List.Forall₂ (fun a a' => f a = a') as as' := h.imp fun a a' h => (each a a' h).symm
  rw [← List.forall₂_map_left_iff, List.forall₂_eq_eq_eq] at same
  exact same.symm

theorem Segments.eq {s s' : Segment} (h : (within origin).Segments s s') :
    s' = s.relocate origin.within := by
  cases h with
  | text => rfl
  | placeholder at' => exact congrArg (Segment.placeholder _) at'.2.2

theorem Tokens.eq {t t' : Token} (h : (within origin).Tokens t t') :
    t' = t.relocate origin.within := by
  cases h with
  | plain none => exact (Token.relocate_eq_self none).symm
  | str same => exact congrArg Token.str (eq_map (fun _ _ h => h.eq) same)

theorem Lexemes.eq {l l' : Lexeme} (h : (within origin).Lexemes l l') :
    l' = l.relocate origin.within :=
  congrArg₂ Lexeme.mk h.token.eq h.pos.2.2

theorem Errors.eq {e e' : SyntaxError} (h : (within origin).Errors e e') :
    e' = e.relocate origin.within := by
  obtain ⟨fault, p, found⟩ := e
  obtain ⟨_, _, _⟩ := e'
  obtain ⟨rfl, ⟨-, -, rfl⟩, rfl⟩ := h
  rfl

end Shift

/-- A text that begins at the origin is read as by itself, with each place moved there. -/
theorem Lexer.tokenizeAt_eq_relocate (source : String) (origin : Position) :
    tokenizeAt source origin =
      match tokenize source with
      | .ok ls => .ok (ls.map (Lexeme.relocate origin.within))
      | .error e => .error (e.relocate origin.within) := by
  have start : (Shift.within origin).rel .start origin := by
    refine ⟨Nat.le_refl 1, Nat.le_refl 1, ?_⟩
    unfold Position.within Position.start
    simp
  have same := tokens_shift (source.toList.length + 1) .none (.ahead source.toList start)
  unfold tokenize tokenizeAt
  generalize tokens _ none ⟨source.toList, .start⟩ = r at same ⊢
  generalize tokens _ none ⟨source.toList, origin⟩ = r' at same ⊢
  cases same with
  | ok same => exact congrArg Except.ok (Shift.eq_map (fun _ _ h => h.eq) same)
  | error same => exact congrArg Except.error same.eq

end WidgetScript
