import WidgetScript.Proofs.Token.Places

/-! That places are those of the text. Whatever is read from a cursor that stands in a text stands
in that text: the tokens with their names, the sources of their placeholders, and the faults. The
source of a placeholder may then be read on its own, from its place. -/
namespace WidgetScript

/-- The place behind the characters of a text: the lines that end among them, and the characters
since the last one did. -/
def Position.behind (before : List Char) : Position :=
  ⟨before.count '\n' + 1, (before.reverse.takeWhile (· ≠ '\n')).length + 1⟩

/-- The characters stand in the text at this place. With no characters it only is a place of the
text, that of a character or the end. -/
def Shows (text : List Char) (p : Position) (cs : List Char) : Prop :=
  ∃ before after, text = before ++ (cs ++ after) ∧ p = .behind before

def Cursor.Reads (text : List Char) (s : Cursor) : Prop := Shows text s.pos s.rest

def Token.name : Token → String
  | .ident name => name
  | _ => ""

/-- The text shows the token: the name, if it has one, and the sources of its placeholders. -/
structure Lexeme.ShownIn (text : List Char) (l : Lexeme) : Prop where
  name : Shows text l.pos l.token.name.toList
  holes : ∀ hole ∈ l.token.holes, Shows text hole.2 hole.1.toList

/-- What the outcome gives satisfies `post`, and a fault stands in a place of the text. -/
structure Sited {α : Type} (text : List Char) (r : Except SyntaxError α) (post : α → Prop) :
    Prop where
  gives : ∀ a, r = .ok a → post a
  fails : FailsBy (fun e => Shows text e.pos []) r

variable {text : List Char} {p : Position}

theorem Position.behind_snoc (before : List Char) (c : Char) :
    behind (before ++ [c]) = (behind before).advance c := by
  by_cases h : c = '\n' <;> simp [behind, advance, h]

theorem Position.behind_append (before cs : List Char) :
    behind (before ++ cs) = (behind before).after cs := by
  induction cs generalizing before with
  | nil => rw [List.append_nil]; rfl
  | cons c cs ih =>
    rw [← List.singleton_append, ← List.append_assoc, ih, behind_snoc]
    rfl

namespace Shows
variable {cs cs' : List Char}

theorem start (text : List Char) : Shows text .start text := ⟨[], [], by simp, rfl⟩

theorem left (h : Shows text p (cs ++ cs')) : Shows text p cs := by
  obtain ⟨before, after, rfl, rfl⟩ := h
  exact ⟨before, cs' ++ after, by simp, rfl⟩

theorem place (h : Shows text p cs) : Shows text p [] := left h

theorem right (h : Shows text p (cs ++ cs')) : Shows text (p.after cs) cs' := by
  obtain ⟨before, after, rfl, rfl⟩ := h
  exact ⟨before ++ cs, after, by simp, (Position.behind_append before cs).symm⟩

end Shows

theorem Lexeme.ShownIn.place {l : Lexeme} (h : l.ShownIn text) : Shows text l.pos [] :=
  h.name.place

namespace Cursor
variable {s s' : Cursor} {c : Char} {cs : List Char}

theorem Reads.passes (h : s.Reads text) (passes : s.Passes cs s') : s'.Reads text := by
  rw [Reads, passes.1] at h
  rw [Reads, passes.2]
  exact h.right

theorem Reads.passed (h : s.Reads text) (passes : s.Passes cs s') : Shows text s.pos cs := by
  rw [Reads, passes.1] at h
  exact h.left

theorem Reads.tail (h : (⟨c :: cs, p⟩ : Cursor).Reads text) :
    (⟨cs, p.advance c⟩ : Cursor).Reads text := h.passes Passes.nil.cons

end Cursor

namespace Sited
variable {α β : Type} {r : Except SyntaxError α} {f : α → Except SyntaxError β} {a : α}
  {e : SyntaxError} {post : α → Prop} {post' : β → Prop}

theorem ok (h : post a) : Sited text (.ok a) post where
  gives b eq := by cases eq; exact h
  fails := .ok

theorem error (h : Shows text e.pos []) : Sited text (.error e : Except SyntaxError α) post where
  gives := nofun
  fails := .error h

theorem bind (first : Sited text r post) (rest : ∀ a, post a → Sited text (f a) post') :
    Sited text (r >>= f) post' := by
  cases r with
  | ok a => exact rest a (first.gives a rfl)
  | error e => exact .error (first.fails e rfl)

end Sited

namespace Lexer
open Text
variable {s s' : Cursor} {c : Char} {cs : List Char} {t : Token}

theorem shown_of_plain (here : Shows text p []) (name : t.name = "") (holes : t.holes = []) :
    (⟨t, p⟩ : Lexeme).ShownIn text where
  name := by rw [name]; exact here
  holes := by rw [holes]; exact nofun

theorem name_of_punctuation? (h : punctuation? c = some t) : t.name = "" := by
  unfold punctuation? at h
  split at h <;> cases h <;> rfl

theorem name_ofWord (word : String) :
    (Token.ofWord word).name = word ∨ (Token.ofWord word).name = "" := by
  unfold Token.ofWord
  split <;> simp [Token.name]

theorem pieces_sited {opened : Position} (here : Shows text opened []) {budget : List Char}
    (reads : s.Reads text) :
    Sited text (pieces opened budget s) fun r =>
      ∀ hole ∈ r.1.filterMap Piece.hole?, Shows text hole.2 hole.1.toList := by
  fun_induction pieces opened budget s
  case case1 | case2 | case4 => exact .error here
  case case3 => exact .ok (by simp)
  case case5 ih => exact (ih reads.tail.tail).bind fun r shown => .ok shown
  case case6 => exact .error reads.place
  case case7 pos source t found ih =>
    have before := placeholder_passes found
    have inside : Cursor.Reads text ⟨_, pos⟩ := reads.tail.tail
    have hole : Shows text pos (String.ofList source).toList := by
      rw [String.toList_ofList]
      exact (inside.passed before).left
    refine (ih (inside.passes before)).bind fun r shown => .ok ?_
    exact List.forall_mem_cons.2 ⟨hole, shown⟩
  case case8 ih => exact (ih reads.tail).bind fun r shown => .ok shown

theorem string_sited (quote : s.rest = c :: cs) (reads : s.Reads text) :
    Sited text (string s) fun r => (⟨r.1, s.pos⟩ : Lexeme).ShownIn text := by
  have inside : s.next.Reads text := reads.passes (Cursor.passes_next quote)
  refine (pieces_sited reads.place inside).bind fun r shown => .ok ⟨reads.place, ?_⟩
  rwa [holes_segmentsOf]

theorem rawString_sited (reads : s.Reads text) :
    Sited text (rawString s) fun r => (⟨r.1, s.pos⟩ : Lexeme).ShownIn text := by
  unfold rawString
  split
  · exact .ok (shown_of_plain reads.place rfl rfl)
  · exact .error reads.place

theorem longer_shown {second : Char} {yes no : Token} (here : Shows text p [])
    (nameYes : yes.name = "") (nameNo : no.name = "") (plainYes : yes.holes = [])
    (plainNo : no.holes = []) : (⟨(longer s second yes no).1, p⟩ : Lexeme).ShownIn text := by
  unfold longer
  split
  · exact shown_of_plain here nameYes plainYes
  · exact shown_of_plain here nameNo plainNo

theorem doubled_sited (reads : s.Reads text) (name : t.name = "") (plain : t.holes = []) :
    Sited text (doubled s c t) fun r => (⟨r.1, s.pos⟩ : Lexeme).ShownIn text := by
  unfold doubled
  split
  · exact .ok (shown_of_plain reads.place name plain)
  · exact .error reads.place

theorem word_shown (reads : s.Reads text) :
    (⟨Token.ofWord (word s).1, s.pos⟩ : Lexeme).ShownIn text := by
  refine ⟨?_, by simp [holes_ofWord]⟩
  dsimp only
  rcases name_ofWord (word s).1 with name | name
  · obtain ⟨cs, read, passed⟩ := word_passes s
    rw [name, read]
    exact reads.passed passed
  · rw [name]
    exact reads.place

theorem next_sited (prev : Option Token) (reads : s.Reads text) :
    Sited text (next prev s) fun r => (⟨r.1, s.pos⟩ : Lexeme).ShownIn text := by
  have here := reads.place
  unfold next
  split
  · exact .ok (shown_of_plain here rfl rfl)
  next c cs first =>
    split
    next t punctuation =>
      exact .ok (shown_of_plain here (name_of_punctuation? punctuation)
        (holes_of_punctuation? punctuation))
    next =>
      split
      iterate 4 exact .ok (longer_shown here rfl rfl rfl rfl)
      iterate 2 exact doubled_sited reads rfl rfl
      · split
        · exact .ok (shown_of_plain here rfl rfl)
        · exact .ok (shown_of_plain here rfl rfl)
      · exact string_sited first reads
      · exact rawString_sited reads
      · split
        · exact .ok (shown_of_plain here rfl rfl)
        · split
          · exact .ok (word_shown reads)
          · exact .error here

theorem tokens_sited (fuel : Nat) (prev : Option Token) (reads : s.Reads text) :
    Sited text (tokens fuel prev s) fun ls => ∀ l ∈ ls, l.ShownIn text := by
  induction fuel generalizing prev s with
  | zero => exact .ok nofun
  | succ fuel ih =>
    obtain ⟨cs, skipped⟩ := skipBlanks_passes false s.rest s.pos
    have reads : (skipBlanks false s.rest s.pos).Reads text := reads.passes skipped
    rw [tokens]
    generalize skipBlanks false s.rest s.pos = s at reads
    have first : Sited text (next prev s) fun r =>
        (⟨r.1, s.pos⟩ : Lexeme).ShownIn text ∧ (r.1 ≠ .eof → r.2.Reads text) := by
      have shown := next_sited prev reads
      refine ⟨fun r eq => ⟨shown.gives r eq, fun notEnd => ?_⟩, shown.fails⟩
      obtain ⟨⟨cs, passes⟩, _⟩ := next_takes eq notEnd
      exact reads.passes passes
    refine first.bind ?_
    rintro ⟨token, s'⟩ ⟨shown, behind⟩
    dsimp only
    split
    next ends =>
      subst ends
      exact .ok (by simpa using shown)
    next notEnd =>
      split
      · exact ih prev (behind notEnd)
      · refine (ih (some token) (behind notEnd)).bind fun ls rest => .ok ?_
        exact List.forall_mem_cons.2 ⟨shown, rest⟩

theorem tokenizeAt_sited {source : String} (here : Shows text p source.toList) :
    Sited text (tokenizeAt source p) fun ls => ∀ l ∈ ls, l.ShownIn text :=
  tokens_sited _ none here

end Lexer
end WidgetScript
