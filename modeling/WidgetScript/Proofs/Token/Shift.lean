import Mathlib.Data.List.Forall2
import WidgetScript.Proofs.Token.Places

/-! One text that is read in two places. What is read does not depend on where the text stands, so
the two readings go in step, and each place that the one notes stands for the place that the other
notes. -/
namespace WidgetScript

/-- Which place of the one reading stands for which of the other. They go on together. -/
structure Shift where
  rel : Position → Position → Prop
  advance {p q : Position} (c : Char) : rel p q → rel (p.advance c) (q.advance c)

namespace Shift
variable (m : Shift)

structure Cursors (s s' : Cursor) : Prop where
  rest : s.rest = s'.rest
  pos : m.rel s.pos s'.pos

inductive Segments : Segment → Segment → Prop where
  | text (t : String) : Segments (.text t) (.text t)
  | placeholder {source : String} {p q : Position} :
      m.rel p q → Segments (.placeholder source p) (.placeholder source q)

inductive Tokens : Token → Token → Prop where
  | plain {t : Token} : t.holes = [] → Tokens t t
  | str {ss ss' : List Segment} : List.Forall₂ m.Segments ss ss' → Tokens (.str ss) (.str ss')

inductive Pieces : Lexer.Piece → Lexer.Piece → Prop where
  | char (c : Char) : Pieces (.char c) (.char c)
  | hole {source : String} {p q : Position} :
      m.rel p q → Pieces (.hole source p) (.hole source q)

structure Lexemes (l l' : Lexeme) : Prop where
  token : m.Tokens l.token l'.token
  pos : m.rel l.pos l'.pos

structure Errors (e e' : SyntaxError) : Prop where
  fault : e.fault = e'.fault
  pos : m.rel e.pos e'.pos
  found : e.found = e'.found

def Reads {α : Type} (related : α → α → Prop) (r r' : α × Cursor) : Prop :=
  related r.1 r'.1 ∧ m.Cursors r.2 r'.2

inductive Outcomes {α : Type} (related : α → α → Prop) :
    Except SyntaxError α → Except SyntaxError α → Prop where
  | ok {a a' : α} : related a a' → Outcomes related (.ok a) (.ok a')
  | error {e e' : SyntaxError} : m.Errors e e' → Outcomes related (.error e) (.error e')

variable {m} {s s' : Cursor} {p p' : Position}

theorem Outcomes.bind {α β : Type} {related : α → α → Prop} {related' : β → β → Prop}
    {r r' : Except SyntaxError α} {f f' : α → Except SyntaxError β}
    (first : m.Outcomes related r r')
    (next : ∀ a a', related a a' → m.Outcomes related' (f a) (f' a')) :
    m.Outcomes related' (r >>= f) (r' >>= f') := by
  cases first with
  | ok h => exact next _ _ h
  | error h => exact .error h

theorem Outcomes.mono {α : Type} {related weaker : α → α → Prop} {r r' : Except SyntaxError α}
    (h : m.Outcomes related r r') (le : ∀ a a', related a a' → weaker a a') :
    m.Outcomes weaker r r' := by
  cases h with
  | ok h => exact .ok (le _ _ h)
  | error h => exact .error h

theorem Tokens.eq_iff {token token' t : Token} (h : m.Tokens token token')
    (plain : ∀ ss, t ≠ .str ss) : token = t ↔ token' = t := by
  cases h with
  | plain => rfl
  | str => simp [(plain _).symm]

theorem Tokens.endsKey_eq {token token' : Token} (h : m.Tokens token token') :
    Lexer.endsKey (some token) = Lexer.endsKey (some token') := by
  cases h <;> rfl

theorem Cursors.ahead (rest : List Char) (h : m.rel p p') : m.Cursors ⟨rest, p⟩ ⟨rest, p'⟩ :=
  ⟨rfl, h⟩

theorem Cursors.next (h : m.Cursors s s') : m.Cursors s.next s'.next := by
  obtain ⟨rest, p⟩ := s
  obtain ⟨_, p'⟩ := s'
  obtain ⟨same, pos⟩ := h
  cases same
  cases rest with
  | nil => exact ⟨rfl, pos⟩
  | cons c cs => exact ⟨rfl, m.advance c pos⟩

theorem takeWhile_shift (q : Char → Bool) (rest : List Char) (h : m.rel p p') :
    m.Reads Eq (Cursor.takeWhile q rest p) (Cursor.takeWhile q rest p') := by
  induction rest generalizing p p' with
  | nil => exact ⟨rfl, rfl, h⟩
  | cons c cs ih =>
    obtain ⟨run, behind⟩ := ih (m.advance c h)
    rw [Cursor.takeWhile, Cursor.takeWhile]
    split
    · exact ⟨congrArg (c :: ·) run, behind⟩
    · exact ⟨rfl, rfl, h⟩

theorem Cursors.span (h : m.Cursors s s') (q : Char → Bool) :
    m.Reads Eq (s.span q) (s'.span q) := by
  rw [Cursor.span, Cursor.span, ← h.rest]
  exact takeWhile_shift q s.rest h.pos

end Shift

namespace Lexer
open Text Shift
variable {m : Shift} {s s' t : Cursor} {p p' : Position}

theorem skipBlanks_shift (comment : Bool) (rest : List Char) (h : m.rel p p') :
    m.Cursors (skipBlanks comment rest p) (skipBlanks comment rest p') := by
  fun_induction skipBlanks comment rest p generalizing p'
  case case1 => exact .ahead _ h
  case case2 =>
    simp only [skipBlanks]
    exact .ahead _ (m.advance _ h)
  case case3 outside ih =>
    simp only [skipBlanks, outside]
    exact ih (m.advance _ (m.advance _ h))
  case case4 | case7 => simp_all [skipBlanks, Cursors.ahead]
  case case5 ih | case6 ih =>
    have behind := ih (m.advance _ h)
    simp_all [skipBlanks]

theorem word_shift (h : m.Cursors s s') : m.Reads Eq (word s) (word s') := by
  obtain ⟨run, behind⟩ := h.span continuesName
  unfold word
  dsimp only
  rw [← run, ← behind.rest]
  split
  · split
    · exact ⟨rfl, behind.next⟩
    · exact ⟨rfl, behind⟩
  · exact ⟨rfl, behind⟩

theorem number_shift (h : m.Cursors s s') : m.Reads Eq (number s) (number s') := by
  obtain ⟨run, behind⟩ := h.span fun c => c.isDigit || c == '_'
  unfold number
  dsimp only
  rw [← run, ← behind.rest]
  split
  · obtain ⟨fraction, behind'⟩ := behind.next.span Char.isDigit
    split
    · exact ⟨by rw [fraction], behind'⟩
    · exact ⟨rfl, behind⟩
  · exact ⟨rfl, behind⟩

theorem keep_shift {r r' : Option (List Char × Cursor)} (h : Option.Rel (m.Reads Eq) r r')
    (c : Char) : Option.Rel (m.Reads Eq) (r.map (keep c)) (r'.map (keep c)) := by
  cases h with
  | none => exact .none
  | some same => exact .some ⟨congrArg (c :: ·) same.1, same.2⟩

theorem placeholder_shift (depth : Nat) (quote : Option Char) (rest : List Char)
    (h : m.rel p p') :
    Option.Rel (m.Reads Eq) (placeholder depth quote rest p) (placeholder depth quote rest p') := by
  fun_induction placeholder depth quote rest p generalizing p'
  case case1 => exact .none
  case case2 ih =>
    simp only [placeholder, ← Option.map_map]
    exact keep_shift (keep_shift (ih (m.advance _ (m.advance _ h))) _) _
  case case4 =>
    simp only [placeholder]
    exact .some ⟨rfl, .ahead _ (m.advance _ h)⟩
  case case3 ih | case5 ih | case6 ih | case7 ih =>
    simp_all only [placeholder]
    exact keep_shift (ih (m.advance _ h)) _

theorem rawText_shift (rest : List Char) (h : m.rel p p') :
    Option.Rel (m.Reads Eq) (rawText rest p) (rawText rest p') := by
  fun_induction rawText rest p generalizing p'
  case case1 => exact .none
  case case2 => exact .some ⟨rfl, .ahead _ (m.advance _ h)⟩
  case case3 ih | case4 ih =>
    simp_all only [rawText]
    exact keep_shift (ih (m.advance _ (m.advance _ h))) _
  case case5 ih =>
    simp_all only [rawText]
    exact keep_shift (ih (m.advance _ h)) _

theorem segments_shift (text : List Char) {ps ps' : List Piece} (h : List.Forall₂ m.Pieces ps ps') :
    List.Forall₂ m.Segments (segments text ps) (segments text ps') := by
  have lead (text : List Char) : List.Forall₂ m.Segments
      (if text.isEmpty then [] else [.text (String.ofList text)])
      (if text.isEmpty then [] else [.text (String.ofList text)]) := by
    split
    · exact .nil
    · exact .cons (.text _) .nil
  induction h generalizing text with
  | nil => exact lead text
  | cons first _ ih =>
    cases first with
    | char c => exact ih (text ++ [c])
    | hole at' => exact List.rel_append (lead text) (.cons (.placeholder at') (ih []))

theorem segmentsOf_shift {ps ps' : List Piece} (h : List.Forall₂ m.Pieces ps ps') :
    List.Forall₂ m.Segments (segmentsOf ps) (segmentsOf ps') := by
  have joined := segments_shift [] h
  unfold segmentsOf
  generalize segments [] ps = ss at joined
  generalize segments [] ps' = ss' at joined
  cases joined with
  | nil => exact .cons (.text "") .nil
  | cons first rest => exact .cons first rest

theorem pieces_shift {opened opened' : Position} (budget : List Char)
    (start : m.rel opened opened') (h : m.Cursors s s') :
    m.Outcomes (m.Reads (List.Forall₂ m.Pieces)) (pieces opened budget s)
      (pieces opened' budget s') := by
  obtain ⟨rest, p'⟩ := s'
  obtain ⟨same, h⟩ := h
  cases same
  fun_induction pieces opened budget s generalizing p'
  case case1 | case2 | case4 => exact .error ⟨rfl, start, rfl⟩
  case case3 => exact .ok ⟨.nil, .ahead _ (m.advance _ h)⟩
  case case5 ih =>
    simp only [pieces]
    exact (ih _ (m.advance _ (m.advance _ h))).bind fun r r' same =>
      .ok ⟨.cons (.char _) same.1, same.2⟩
  case case6 missing =>
    have same := missing ▸ placeholder_shift 0 none _ (m.advance '\x7b' (m.advance '#' h))
    simp only [pieces]
    generalize placeholder 0 none _ ((p'.advance '#').advance '\x7b') = r at same
    cases same
    exact .error ⟨rfl, h, rfl⟩
  case case7 found ih =>
    have inside := m.advance '\x7b' (m.advance '#' h)
    have same := found ▸ placeholder_shift 0 none _ inside
    simp only [pieces]
    generalize placeholder 0 none _ ((p'.advance '#').advance '\x7b') = r at same
    cases same with
    | @some _ r same =>
      obtain ⟨source, rest, q⟩ := r
      obtain ⟨rfl, rfl, behind⟩ := same
      exact (ih _ behind).bind fun r r' same => .ok ⟨.cons (.hole inside) same.1, same.2⟩
  case case8 ih =>
    simp_all only [pieces]
    exact (ih _ (m.advance _ h)).bind fun r r' same => .ok ⟨.cons (.char _) same.1, same.2⟩

theorem string_shift (h : m.Cursors s s') :
    m.Outcomes (m.Reads m.Tokens) (string s) (string s') := by
  unfold string
  rw [← h.rest]
  exact (pieces_shift s.rest h.pos h.next).bind fun r r' same =>
    .ok ⟨.str (segmentsOf_shift same.1), same.2⟩

theorem rawString_shift (h : m.Cursors s s') :
    m.Outcomes (m.Reads m.Tokens) (rawString s) (rawString s') := by
  have same := rawText_shift s.next.rest h.next.pos
  unfold rawString
  rw [← h.next.rest]
  generalize rawText s.next.rest s.next.pos = r at same
  generalize rawText s.next.rest s'.next.pos = r' at same
  cases same with
  | none => exact .error ⟨rfl, h.pos, rfl⟩
  | @some r r' same =>
    obtain ⟨text, behind⟩ := same
    exact .ok ⟨text ▸ .str (.cons (.text _) .nil), behind⟩

theorem longer_shift (h : m.Cursors s s') (second : Char) {yes no : Token}
    (plainYes : yes.holes = []) (plainNo : no.holes = []) :
    m.Reads m.Tokens (longer s second yes no) (longer s' second yes no) := by
  unfold longer
  rw [← h.next.rest]
  split
  · exact ⟨.plain plainYes, h.next.next⟩
  · exact ⟨.plain plainNo, h.next⟩

theorem doubled_shift (h : m.Cursors s s') (c : Char) {token : Token} (plain : token.holes = []) :
    m.Outcomes (m.Reads m.Tokens) (doubled s c token) (doubled s' c token) := by
  unfold doubled
  rw [← h.next.rest]
  split
  · exact .ok ⟨.plain plain, h.next.next⟩
  · exact .error ⟨rfl, h.pos, rfl⟩

theorem next_shift {prev prev' : Option Token} (keys : endsKey prev = endsKey prev')
    (h : m.Cursors s s') : m.Outcomes (m.Reads m.Tokens) (next prev s) (next prev' s') := by
  unfold next
  rw [← h.rest, keys]
  split
  · exact .ok ⟨.plain rfl, h⟩
  · split
    next punctuation => exact .ok ⟨.plain (holes_of_punctuation? punctuation), h.next⟩
    · split
      iterate 4 exact .ok (longer_shift h _ rfl rfl)
      iterate 2 exact doubled_shift h _ rfl
      · split
        · obtain ⟨name, behind⟩ := word_shift h.next
          exact .ok ⟨name ▸ .plain rfl, behind⟩
        · exact .ok ⟨.plain rfl, h.next⟩
      · exact string_shift h
      · exact rawString_shift h
      · split
        · obtain ⟨x, behind⟩ := number_shift h
          exact .ok ⟨x ▸ .plain rfl, behind⟩
        · split
          · obtain ⟨name, behind⟩ := word_shift h
            exact .ok ⟨name ▸ .plain (holes_ofWord _), behind⟩
          · exact .error ⟨rfl, h.pos, rfl⟩

theorem tokens_shift (fuel : Nat) {prev prev' : Option Token}
    (before : Option.Rel m.Tokens prev prev') (h : m.Cursors s s') :
    m.Outcomes (List.Forall₂ m.Lexemes) (tokens fuel prev s) (tokens fuel prev' s') := by
  induction fuel generalizing prev prev' s s' with
  | zero => exact .ok .nil
  | succ fuel ih =>
    have skipped : m.Cursors (skipBlanks false s.rest s.pos) (skipBlanks false s'.rest s'.pos) :=
      h.rest ▸ skipBlanks_shift false s.rest h.pos
    have keys : endsKey prev = endsKey prev' := by
      cases before with
      | none => rfl
      | some same => exact same.endsKey_eq
    have first : (prev = none ∨ prev = some .newline) ↔ (prev' = none ∨ prev' = some .newline) := by
      cases before with
      | none => simp
      | some same => simpa using same.eq_iff (t := .newline) (by simp)
    rw [tokens, tokens]
    refine (next_shift keys skipped).bind ?_
    rintro ⟨token, t⟩ ⟨token', t'⟩ ⟨same, behind⟩
    dsimp only
    simp only [same.eq_iff (t := .eof) (by simp), same.eq_iff (t := .newline) (by simp), first]
    split
    · exact .ok (.cons ⟨.plain rfl, skipped.pos⟩ .nil)
    · split
      · exact ih before behind
      · exact (ih (.some same) behind).bind fun ls ls' rest => .ok (.cons ⟨same, skipped.pos⟩ rest)

end Lexer
end WidgetScript
