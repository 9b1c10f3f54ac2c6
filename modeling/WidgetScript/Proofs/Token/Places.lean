import Mathlib.Data.Prod.Lex
import WidgetScript.Proofs.Outcome
import WidgetScript.Token.Lexer

/-! Where the tokens of a text stand. A text is read from the front to its end, so one token ends
before the next one begins, and the source of a placeholder lies inside its string. -/
namespace WidgetScript

namespace Position

instance : Preorder Position := Preorder.lift fun p => toLex (p.line, p.column)

theorem lt_iff {p q : Position} :
    p < q ↔ p.line < q.line ∨ p.line = q.line ∧ p.column < q.column :=
  Prod.Lex.toLex_lt_toLex

theorem lt_advance (p : Position) (c : Char) : p < p.advance c := by
  rw [lt_iff, advance]
  split
  · exact .inl (Nat.lt_succ_self _)
  · exact .inr ⟨rfl, Nat.lt_succ_self _⟩

def after (p : Position) (cs : List Char) : Position := cs.foldl advance p

theorem le_after (p : Position) (cs : List Char) : p ≤ p.after cs := by
  induction cs generalizing p with
  | nil => exact le_refl p
  | cons c cs ih => exact (p.lt_advance c).le.trans (ih _)

theorem lt_after (p : Position) {cs : List Char} (some : cs ≠ []) : p < p.after cs := by
  cases cs with
  | nil => exact absurd rfl some
  | cons c cs => exact (p.lt_advance c).trans_le (le_after _ cs)

end Position

def Cursor.Passes (s : Cursor) (cs : List Char) (s' : Cursor) : Prop :=
  s.rest = cs ++ s'.rest ∧ s'.pos = s.pos.after cs

namespace Cursor
variable {s s' s'' : Cursor} {cs cs' : List Char} {c : Char} {p : Position}

theorem Passes.nil : s.Passes [] s := ⟨rfl, rfl⟩

theorem Passes.trans (h : s.Passes cs s') (h' : s'.Passes cs' s'') : s.Passes (cs ++ cs') s'' :=
  ⟨by rw [h.1, h'.1, List.append_assoc], by rw [h'.2, h.2, Position.after, Position.after,
    Position.after, List.foldl_append]⟩

theorem Passes.cons (h : (⟨cs, p.advance c⟩ : Cursor).Passes cs' s') :
    (⟨c :: cs, p⟩ : Cursor).Passes (c :: cs') s' :=
  have first : (⟨c :: cs, p⟩ : Cursor).Passes [c] ⟨cs, p.advance c⟩ := ⟨rfl, rfl⟩
  first.trans h

theorem Passes.le (h : s.Passes cs s') : s.pos ≤ s'.pos := h.2 ▸ s.pos.le_after cs

theorem Passes.lt (h : s.Passes cs s') (some : cs ≠ []) : s.pos < s'.pos :=
  h.2 ▸ s.pos.lt_after some

theorem Passes.finish (h : s.Passes cs s') : s'.pos.after s'.rest = s.pos.after s.rest := by
  rw [h.1, h.2, Position.after, Position.after, Position.after, List.foldl_append]

theorem passes_next (h : s.rest = c :: cs) : s.Passes [c] s.next := by
  obtain ⟨rest, p⟩ := s
  cases h
  exact ⟨rfl, rfl⟩

theorem passes_takeWhile (q : Char → Bool) (rest : List Char) (p : Position) :
    (⟨rest, p⟩ : Cursor).Passes (takeWhile q rest p).1 (takeWhile q rest p).2 := by
  induction rest generalizing p with
  | nil => exact .nil
  | cons c cs ih =>
    rw [takeWhile]
    split
    · exact (ih _).cons
    · exact .nil

theorem passes_span (s : Cursor) (q : Char → Bool) : s.Passes (s.span q).1 (s.span q).2 :=
  passes_takeWhile q s.rest s.pos

theorem span_ne_nil {q : Char → Bool} (h : s.rest = c :: cs) (first : q c) :
    (s.span q).1 ≠ [] := by
  rw [span, h, takeWhile, if_pos first]
  nofun

end Cursor

inductive Holed : Position → List (String × Position) → Position → Prop where
  | nil {lo hi : Position} : lo ≤ hi → Holed lo [] hi
  | cons {lo pos mid hi : Position} {source : String} {holes : List (String × Position)} :
      lo ≤ pos → pos.after source.toList < mid → Holed mid holes hi →
      Holed lo ((source, pos) :: holes) hi

theorem Holed.mono {lo lo' hi : Position} {holes : List (String × Position)} (le : lo' ≤ lo)
    (h : Holed lo holes hi) : Holed lo' holes hi := by
  cases h with
  | nil h => exact .nil (le.trans h)
  | cons first before rest => exact .cons (le.trans first) before rest

theorem Holed.le {lo hi : Position} {holes : List (String × Position)} (h : Holed lo holes hi) :
    lo ≤ hi := by
  induction h with
  | nil h => exact h
  | cons first before _ ih =>
    exact first.trans ((Position.le_after _ _).trans (before.le.trans ih))

def Segment.hole? : Segment → Option (String × Position)
  | .text _ => none
  | .placeholder source pos => some (source, pos)

def Token.holes : Token → List (String × Position)
  | .str segments => segments.filterMap Segment.hole?
  | _ => []

/-- Tokens stand one behind the other between the two places, with their placeholders inside. -/
inductive Laid : Position → List Lexeme → Position → Prop where
  | nil {lo hi : Position} : lo ≤ hi → Laid lo [] hi
  | cons {lo pos inside mid hi : Position} {token : Token} {ls : List Lexeme} :
      lo ≤ pos → pos < inside → Holed inside token.holes mid → Laid mid ls hi →
      Laid lo (⟨token, pos⟩ :: ls) hi

namespace Laid
variable {lo lo' hi hi' : Position} {l : Lexeme} {ls ls' : List Lexeme}

theorem le (h : Laid lo ls hi) : lo ≤ hi := by
  induction h with
  | nil h => exact h
  | cons first before holed _ ih => exact first.trans (before.le.trans (holed.le.trans ih))

theorem mono (h : Laid lo ls hi) (le : lo' ≤ lo) (le' : hi ≤ hi') : Laid lo' ls hi' := by
  induction h generalizing lo' with
  | nil h => exact .nil (le.trans (h.trans le'))
  | cons first before holed _ ih =>
    exact .cons (le.trans first) before holed (ih (le_refl _) le')

theorem of_cons (h : Laid lo (l :: ls) hi) :
    ∃ mid, lo ≤ l.pos ∧ l.pos < mid ∧ Laid mid ls hi := by
  cases h with
  | cons first before holed rest => exact ⟨_, first, before.trans_le holed.le, rest⟩

theorem of_append (h : Laid lo (ls ++ ls') hi) : ∃ mid, Laid lo ls mid ∧ Laid mid ls' hi := by
  induction ls generalizing lo with
  | nil => exact ⟨lo, .nil (le_refl lo), h⟩
  | cons l ls ih =>
    cases h with
    | cons first before holed rest =>
      obtain ⟨mid, left, right⟩ := ih rest
      exact ⟨mid, .cons first before holed left, right⟩

theorem left (h : Laid lo (ls ++ ls') hi) : Laid lo ls hi := by
  obtain ⟨mid, left, right⟩ := h.of_append
  exact left.mono (le_refl lo) right.le

theorem right (h : Laid lo (ls ++ ls') hi) : Laid lo ls' hi := by
  obtain ⟨mid, left, right⟩ := h.of_append
  exact right.mono left.le (le_refl hi)

theorem tail (h : Laid lo (l :: ls) hi) : Laid lo ls hi := by
  rw [← List.singleton_append] at h
  exact h.right

end Laid

namespace Lexer
open Text
variable {s s' : Cursor} {c : Char} {cs : List Char} {t : Token}

theorem skipBlanks_passes (comment : Bool) (rest : List Char) (p : Position) :
    ∃ cs, (⟨rest, p⟩ : Cursor).Passes cs (skipBlanks comment rest p) := by
  fun_induction skipBlanks comment rest p
  case case1 | case4 | case7 => exact ⟨[], .nil⟩
  case case2 => exact ⟨_, Cursor.Passes.nil.cons⟩
  case case3 ih =>
    obtain ⟨cs, ih⟩ := ih
    exact ⟨_, ih.cons.cons⟩
  case case5 ih | case6 ih =>
    obtain ⟨cs, ih⟩ := ih
    exact ⟨_, ih.cons⟩

theorem word_passes (s : Cursor) :
    ∃ cs, (word s).1.toList = (s.span continuesName).1 ++ cs ∧
      s.Passes ((s.span continuesName).1 ++ cs) (word s).2 := by
  have run := s.passes_span continuesName
  unfold word
  dsimp only
  split
  next c cs ahead =>
    split
    · exact ⟨[c], String.toList_ofList, run.trans (Cursor.passes_next ahead)⟩
    · exact ⟨[], by simp, by rwa [List.append_nil]⟩
  next => exact ⟨[], by simp, by rwa [List.append_nil]⟩

theorem number_passes (s : Cursor) :
    ∃ cs, s.Passes ((s.span fun c => c.isDigit || c == '_').1 ++ cs) (number s).2 := by
  have run := s.passes_span fun c => c.isDigit || c == '_'
  unfold number
  dsimp only
  split
  next ahead =>
    split
    · exact ⟨_, run.trans ((Cursor.passes_next ahead).trans (Cursor.passes_span _ _))⟩
    · exact ⟨[], by rwa [List.append_nil]⟩
  next => exact ⟨[], by rwa [List.append_nil]⟩

theorem keep_eq_some {r : Option (List Char × Cursor)} (h : r.map (keep c) = some (cs, s')) :
    ∃ run, r = some (run, s') ∧ cs = c :: run := by
  obtain ⟨⟨run, t⟩, found, h⟩ := Option.map_eq_some_iff.1 h
  cases h
  exact ⟨run, found, rfl⟩

theorem placeholder_passes {depth : Nat} {quote : Option Char} {rest source : List Char}
    {p : Position} (h : placeholder depth quote rest p = some (source, s')) :
    (⟨rest, p⟩ : Cursor).Passes (source ++ ['\x7d']) s' := by
  fun_induction placeholder depth quote rest p generalizing source s'
  case case1 => exact nomatch h
  case case2 ih =>
    rw [← Option.map_map] at h
    obtain ⟨_, escaped, rfl⟩ := keep_eq_some h
    obtain ⟨run, found, rfl⟩ := keep_eq_some escaped
    exact (ih found).cons.cons
  case case4 =>
    cases h
    exact Cursor.Passes.nil.cons
  case case3 ih | case5 ih | case6 ih | case7 ih =>
    obtain ⟨run, found, rfl⟩ := keep_eq_some h
    exact (ih found).cons

theorem rawText_passes {rest text : List Char} {p : Position}
    (h : rawText rest p = some (text, s')) : ∃ cs, (⟨rest, p⟩ : Cursor).Passes cs s' := by
  fun_induction rawText rest p generalizing text s'
  case case1 => exact nomatch h
  case case2 =>
    cases h
    exact ⟨_, Cursor.Passes.nil.cons⟩
  case case3 ih | case4 ih =>
    obtain ⟨run, found, rfl⟩ := keep_eq_some h
    obtain ⟨cs, passed⟩ := ih found
    exact ⟨_, passed.cons.cons⟩
  case case5 ih =>
    obtain ⟨run, found, rfl⟩ := keep_eq_some h
    obtain ⟨cs, passed⟩ := ih found
    exact ⟨_, passed.cons⟩

def Piece.hole? : Piece → Option (String × Position)
  | .char _ => none
  | .hole source pos => some (source, pos)

theorem holes_segments (text : List Char) (ps : List Piece) :
    (segments text ps).filterMap Segment.hole? = ps.filterMap Piece.hole? := by
  fun_induction segments text ps with
  | case1 => rfl
  | case2 => rfl
  | case3 _ _ _ ih => exact ih
  | case4 text source p ps ih =>
    have hole : (Segment.placeholder source p).hole? = some (source, p) := rfl
    rw [List.filterMap_append, List.filterMap_cons_some hole, ih]
    split <;> rfl

theorem holes_segmentsOf (ps : List Piece) :
    (Token.str (segmentsOf ps)).holes = ps.filterMap Piece.hole? := by
  rw [← holes_segments [], segmentsOf, Token.holes]
  split
  next none => rw [none]; rfl
  next => rfl

theorem pieces_passes {opened : Position} {budget : List Char} {ps : List Piece}
    (h : pieces opened budget s = .ok (ps, s')) :
    (∃ cs, s.Passes cs s') ∧ Holed s.pos (ps.filterMap Piece.hole?) s'.pos := by
  fun_induction pieces opened budget s generalizing ps s'
  case case1 | case2 | case4 | case6 => exact nomatch h
  case case3 p _ =>
    cases h
    exact ⟨⟨_, Cursor.Passes.nil.cons⟩, .nil (p.lt_advance _).le⟩
  case case5 p c _ ih =>
    obtain ⟨⟨rest, t⟩, run, h⟩ := bind_eq_ok.1 h
    cases h
    obtain ⟨⟨cs, passed⟩, holed⟩ := ih run
    exact ⟨⟨_, passed.cons.cons⟩, holed.mono ((p.lt_advance _).trans (Position.lt_advance _ c)).le⟩
  case case7 p _ inside source t found ih =>
    obtain ⟨⟨rest, t'⟩, run, h⟩ := bind_eq_ok.1 h
    cases h
    obtain ⟨⟨cs, passed⟩, holed⟩ := ih run
    have before := placeholder_passes found
    have behind : inside.after source < t.pos := by
      rw [before.2, Position.after, Position.after, List.foldl_append]
      exact Position.lt_advance _ '\x7d'
    refine ⟨⟨_, (before.trans passed).cons.cons⟩, .cons ?_ ?_ holed⟩
    · exact ((p.lt_advance _).trans (Position.lt_advance _ _)).le
    · rwa [String.toList_ofList]
  case case8 p c _ _ _ _ _ ih =>
    obtain ⟨⟨rest, t⟩, run, h⟩ := bind_eq_ok.1 h
    cases h
    obtain ⟨⟨cs, passed⟩, holed⟩ := ih run
    exact ⟨⟨_, passed.cons⟩, holed.mono (p.lt_advance c).le⟩

def Takes (s : Cursor) (t : Token) (s' : Cursor) : Prop :=
  (∃ cs, s.Passes cs s') ∧ ∃ inside, s.pos < inside ∧ Holed inside t.holes s'.pos

theorem Takes.plain (passes : s.Passes cs s') (some : cs ≠ []) (plain : t.holes = []) :
    Takes s t s' :=
  ⟨⟨cs, passes⟩, s'.pos, passes.lt some, plain ▸ .nil (le_refl _)⟩

theorem string_takes (quote : s.rest = c :: cs) (h : string s = .ok (t, s')) : Takes s t s' := by
  obtain ⟨⟨ps, t'⟩, run, h⟩ := bind_eq_ok.1 h
  cases h
  have first := Cursor.passes_next quote
  obtain ⟨⟨cs, passed⟩, holed⟩ := pieces_passes run
  exact ⟨⟨_, first.trans passed⟩, s.next.pos, first.lt nofun, (holes_segmentsOf ps).symm ▸ holed⟩

theorem rawString_takes (quote : s.rest = c :: cs) (h : rawString s = .ok (t, s')) :
    Takes s t s' := by
  unfold rawString at h
  split at h
  next text t found =>
    cases h
    obtain ⟨cs, passed⟩ := rawText_passes found
    exact .plain ((Cursor.passes_next quote).trans passed) nofun rfl
  next => exact nomatch h

theorem longer_takes {second : Char} {yes no : Token} (first : s.rest = c :: cs)
    (plainYes : yes.holes = []) (plainNo : no.holes = []) :
    Takes s (longer s second yes no).1 (longer s second yes no).2 := by
  have passed := Cursor.passes_next first
  unfold longer
  split
  next found =>
    obtain ⟨cs, ahead⟩ := List.head?_eq_some_iff.1 found
    exact .plain (passed.trans (Cursor.passes_next ahead)) nofun plainYes
  next => exact .plain passed nofun plainNo

theorem doubled_takes {token : Token} (first : s.rest = c :: cs) (plain : token.holes = [])
    (h : doubled s c token = .ok (t, s')) : Takes s t s' := by
  unfold doubled at h
  split at h
  next found =>
    cases h
    obtain ⟨cs, ahead⟩ := List.head?_eq_some_iff.1 found
    exact .plain ((Cursor.passes_next first).trans (Cursor.passes_next ahead)) nofun plain
  next => exact nomatch h

theorem holes_of_punctuation? (h : punctuation? c = some t) : t.holes = [] := by
  unfold punctuation? at h
  split at h <;> cases h <;> rfl

theorem holes_ofWord (word : String) : (Token.ofWord word).holes = [] := by
  unfold Token.ofWord
  split <;> rfl

theorem continuesName_of_startsName (h : startsName c) : continuesName c := by
  rw [startsName] at h
  rw [continuesName, Bool.or_right_comm, h, Bool.true_or]

theorem next_takes {prev : Option Token} (h : next prev s = .ok (t, s')) (notEnd : t ≠ .eof) :
    Takes s t s' := by
  unfold next at h
  split at h
  next =>
    cases h
    exact absurd rfl notEnd
  next c cs first =>
    split at h
    next punctuation =>
      cases h
      exact .plain (Cursor.passes_next first) nofun (holes_of_punctuation? punctuation)
    next =>
      split at h
      iterate 4
        obtain ⟨rfl, rfl⟩ := Prod.mk.inj (Except.ok.inj h)
        exact longer_takes first rfl rfl
      iterate 2 exact doubled_takes first rfl h
      · split at h
        · cases h
          obtain ⟨cs, -, passed⟩ := word_passes s.next
          exact .plain ((Cursor.passes_next first).trans passed) nofun rfl
        · cases h
          exact .plain (Cursor.passes_next first) nofun rfl
      · exact string_takes first h
      · exact rawString_takes first h
      · split at h
        next digit =>
          cases h
          obtain ⟨cs, passed⟩ := number_passes s
          refine .plain passed (List.append_ne_nil_of_left_ne_nil ?_ cs) rfl
          exact Cursor.span_ne_nil first (by rw [digit, Bool.true_or])
        next =>
          split at h
          next letter =>
            cases h
            obtain ⟨cs, -, passed⟩ := word_passes s
            refine .plain passed (List.append_ne_nil_of_left_ne_nil ?_ cs) (holes_ofWord _)
            exact Cursor.span_ne_nil first (continuesName_of_startsName letter)
          next => exact nomatch h

theorem tokens_cons {fuel : Nat} {prev : Option Token} {ls : List Lexeme}
    (stands : skipBlanks false s.rest s.pos = s) (first : next prev s = .ok (t, s'))
    (notEnd : t ≠ .eof) (notLine : t ≠ .newline) (rest : tokens fuel (some t) s' = .ok ls) :
    tokens (fuel + 1) prev s = .ok (⟨t, s.pos⟩ :: ls) := by
  rw [tokens, stands]
  dsimp only
  rw [first]
  change (if t = .eof then _ else if t = .newline ∧ _ then _ else
    tokens fuel (some t) s' >>= fun rest => .ok (⟨t, s.pos⟩ :: rest)) = _
  rw [if_neg notEnd, if_neg fun line => notLine line.1, rest]
  rfl

theorem tokens_laid {fuel : Nat} {prev : Option Token} {ls : List Lexeme} {hi : Position}
    (h : tokens fuel prev s = .ok ls) (behind : s.pos.after s.rest < hi) : Laid s.pos ls hi := by
  induction fuel generalizing prev s ls with
  | zero =>
    cases h
    exact .nil ((s.pos.le_after _).trans behind.le)
  | succ fuel ih =>
    obtain ⟨_, skipped⟩ := skipBlanks_passes false s.rest s.pos
    rw [tokens] at h
    dsimp only at h
    generalize skipBlanks false s.rest s.pos = s₁ at skipped h
    rw [← skipped.finish] at behind
    obtain ⟨⟨t, s₂⟩, token, h⟩ := bind_eq_ok.1 h
    dsimp only at h
    split at h
    next =>
      cases h
      have last := (s₁.pos.le_after s₁.rest).trans_lt behind
      exact .cons skipped.le last (.nil (le_refl hi)) (.nil (le_refl hi))
    next notEnd =>
      obtain ⟨⟨_, passed⟩, inside, before, holed⟩ := next_takes token notEnd
      rw [← passed.finish] at behind
      split at h
      · -- A newline that is left out takes its text all the same.
        exact (ih h behind).mono (skipped.le.trans passed.le) (le_refl hi)
      · obtain ⟨rest, more, h⟩ := bind_eq_ok.1 h
        cases h
        exact .cons skipped.le before holed (ih more behind)

theorem tokenizeAt_laid {source : String} {origin hi : Position} {ls : List Lexeme}
    (h : tokenizeAt source origin = .ok ls) (behind : origin.after source.toList < hi) :
    Laid origin ls hi :=
  tokens_laid h behind

end Lexer
end WidgetScript
