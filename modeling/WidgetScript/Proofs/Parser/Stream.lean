import Mathlib.Data.List.Basic
import WidgetScript.Ast.Parser

/-! What is ahead in a stream, and one step of a parser at a time. -/
namespace WidgetScript

namespace TokenStream
variable {s s' s₁ : TokenStream} {t : Token} {ts us : List Token}

/-- The tokens are ahead in `s`, and `s'` is left behind them. -/
def Ahead : List Token → TokenStream → TokenStream → Prop
  | [], s, s' => s = s'
  | t :: ts, s, s' => s.rest.head?.map Lexeme.token = some t ∧ Ahead ts s.advance s'

theorem Ahead.peek (h : Ahead (t :: ts) s s') : s.peek = t := by
  rw [TokenStream.peek, h.1, Option.getD_some]

theorem Ahead.advance (h : Ahead (t :: ts) s s') : Ahead ts s.advance s' := h.2

theorem second_eq_peek_advance : s.second = s.advance.peek := rfl

theorem length_advance_le : s.advance.rest.length ≤ s.rest.length := by
  rw [TokenStream.advance, List.length_tail]
  exact Nat.sub_le _ _

theorem length_advance_lt (h : s.peek ≠ .eof) : s.advance.rest.length < s.rest.length := by
  obtain ⟨_ | ⟨l, ls⟩, finish⟩ := s
  · exact absurd rfl h
  · exact Nat.lt_succ_self _

theorem ahead_append :
    Ahead (ts ++ us) s s' ↔ ∃ s₁, Ahead ts s s₁ ∧ Ahead us s₁ s' := by
  induction ts generalizing s with
  | nil => simp [Ahead]
  | cons t ts ih => simp [Ahead, ih, and_assoc]

theorem Ahead.length (h : Ahead ts s s') : s.rest.length = ts.length + s'.rest.length := by
  induction ts generalizing s with
  | nil => simp [show s = s' from h]
  | cons t ts ih =>
    obtain ⟨head, tail⟩ := h
    have := ih tail
    cases hs : s.rest with
    | nil => simp [hs] at head
    | cons l ls =>
      simp only [TokenStream.advance, hs, List.tail_cons] at this
      simp only [List.length_cons, this]
      omega

theorem Ahead.advance_lt (h : Ahead (t :: ts) s s') :
    s.advance.rest.length < s.rest.length := by
  rw [h.length, h.advance.length, List.length_cons]
  omega

theorem ahead_of_map_eq (h : s.rest.map Lexeme.token = ts ++ us) :
    ∃ s', Ahead ts s s' ∧ s'.rest.map Lexeme.token = us := by
  induction ts generalizing s with
  | nil => exact ⟨s, rfl, h⟩
  | cons t ts ih =>
    have tail : s.advance.rest.map Lexeme.token = ts ++ us := by
      rw [TokenStream.advance, List.map_tail, h, List.cons_append, List.tail_cons]
    obtain ⟨s', ahead, rest⟩ := ih tail
    refine ⟨s', ⟨?_, ahead⟩, rest⟩
    rw [← List.head?_map, h, List.cons_append, List.head?_cons]

theorem peek_of_map_eq (h : s.rest.map Lexeme.token = t :: ts) : s.peek = t := by
  rw [TokenStream.peek, ← List.head?_map, h, List.head?_cons, Option.getD_some]

def budget (s : TokenStream) : List Lexeme := ⟨.eof, s.finish⟩ :: s.rest

theorem lt_length_budget (s : TokenStream) : s.rest.length < s.budget.length :=
  Nat.lt_succ_self _

theorem skipNewlines_of_ne (h : s.peek ≠ .newline) : s.skipNewlines = s := by
  obtain ⟨_ | ⟨l, ls⟩, finish⟩ := s
  · rfl
  · simp only [peek, List.head?_cons, Option.map_some, Option.getD_some] at h
    simp [skipNewlines, h]

theorem skipNewlines_of_eq (h : s.peek = .newline) : s.skipNewlines = s.advance.skipNewlines := by
  obtain ⟨_ | ⟨l, ls⟩, finish⟩ := s
  · simp [peek] at h
  · simp only [peek, List.head?_cons, Option.map_some, Option.getD_some] at h
    simp [skipNewlines, advance, h]

theorem peek_skipNewlines_ne : s.skipNewlines.peek ≠ .newline := by
  obtain ⟨ls, finish⟩ := s
  induction ls with
  | nil => simp [skipNewlines, peek]
  | cons l ls ih =>
    by_cases h : l.token = .newline
    · simpa [skipNewlines, h] using ih
    · simp [skipNewlines, h, peek]

theorem skipNewlines_idem : s.skipNewlines.skipNewlines = s.skipNewlines :=
  skipNewlines_of_ne peek_skipNewlines_ne

/-- Newlines before the tokens may be skipped. If there are no tokens, these are those behind
them, so what is left is the same only once they are skipped there too. -/
theorem Ahead.skipNewlines (h : Ahead ts s s₁) (head : ts.head? ≠ some .newline) :
    ∃ s₂, Ahead ts s.skipNewlines s₂ ∧ s₂.skipNewlines = s₁.skipNewlines := by
  cases ts with
  | nil => exact ⟨s.skipNewlines, rfl, by rw [skipNewlines_idem, show s = s₁ from h]⟩
  | cons t ts =>
    have : s.peek ≠ .newline := by simpa [h.peek] using head
    exact ⟨s₁, by rwa [skipNewlines_of_ne this], rfl⟩

end TokenStream

namespace Parse
variable {α β : Type} {s s' : TokenStream} {a : α} {t : Token}

theorem run_bind {p : Parse α} (h : p s = .ok (a, s')) (f : α → Parse β) :
    (p >>= f) s = f a s' := by
  change (p s >>= fun r => f r.1 r.2) = _
  rw [h]
  rfl

theorem run_map {p : Parse α} (h : p s = .ok (a, s')) (f : α → β) :
    (f <$> p) s = .ok (f a, s') :=
  run_bind h fun a => pure (f a)

@[simp] theorem run_pure : (pure a : Parse α) s = .ok (a, s) := rfl

@[simp] theorem run_get_bind (f : TokenStream → Parse β) : (get >>= f) s = f s s := rfl

@[simp] theorem run_peek_bind (f : Token → Parse β) : (peek >>= f) s = f s.peek s := rfl

@[simp] theorem run_pos_bind (f : Position → Parse β) : (pos >>= f) s = f s.pos s := rfl

@[simp] theorem run_advance_bind (f : Unit → Parse β) : (advance >>= f) s = f () s.advance := rfl

@[simp] theorem run_skipNewlines_bind (f : Unit → Parse β) :
    (skipNewlines >>= f) s = f () s.skipNewlines := rfl

@[simp] theorem run_rounds_bind (f : List Lexeme → Parse β) :
    (rounds >>= f) s = f s.budget s := rfl

theorem run_expect_bind (h : s.peek = t) (f : Unit → Parse β) :
    (expect t >>= f) s = f () s.advance := by
  refine run_bind ?_ f
  rw [expect, run_peek_bind, if_pos h]
  rfl

theorem run_ident_bind {name : String} (h : s.peek = .ident name) (f : String → Parse β) :
    (ident >>= f) s = f name s.advance := by
  refine run_bind ?_ f
  rw [ident, run_peek_bind, h]
  rfl

end Parse

end WidgetScript
