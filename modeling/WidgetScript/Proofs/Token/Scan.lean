import WidgetScript.Proofs.Token.Places

/-! The search for the brace that closes a placeholder. It goes over the characters with a simple
idea of strings: a quote begins one and the same quote ends it, and placeholders in it are not
known. Over what the lexer reads as a token it keeps count, unless a string has a placeholder in
which the quotes mislead it. -/
namespace WidgetScript.Lexer
open Text

/-- How many braces are open behind the text, and the quote of the string that it ends in, for the
search that begins with these. There is nothing if the search ends before, or within an escape. -/
def scan : (depth : Nat) → (quote : Option Char) → List Char → Option (Nat × Option Char)
  | depth, quote, [] => some (depth, quote)
  | depth, some q, c :: cs =>
      if c = '\\' then
        match cs with
        | [] => none
        | _ :: cs => scan depth (some q) cs
      else scan depth (if c = q then none else some q) cs
  | depth, none, c :: cs =>
      if c = '\x7d' then
        match depth with
        | 0 => none
        | depth + 1 => scan depth none cs
      else if c = '\x7b' then scan (depth + 1) none cs
      else scan depth (if c = '"' ∨ c = '\'' then some c else none) cs

variable {depth depth' : Nat} {quote quote' : Option Char} {c q : Char} {cs rest : List Char}

theorem scan_quoted (plain : c ≠ '\\') :
    scan depth (some q) (c :: cs) = scan depth (if c = q then none else some q) cs := by
  cases cs <;> simp [scan, plain]

theorem scan_within (plain : c ≠ '\\') (other : c ≠ q) :
    scan depth (some q) (c :: cs) = scan depth (some q) cs := by
  rw [scan_quoted plain, if_neg other]

/-- The search goes on behind a text as from what is open there, and the braces that were open
before the text make no difference to it. -/
theorem scan_behind (h : scan depth quote cs = some (depth', quote')) (k : Nat) (rest : List Char) :
    scan (depth + k) quote (cs ++ rest) = scan (depth' + k) quote' rest := by
  fun_induction scan depth quote cs
  case case1 =>
    cases h
    rfl
  case case2 | case5 => cases h
  all_goals simp_all [scan, scan_quoted, Nat.add_right_comm]

theorem placeholder_of_scan (h : scan depth quote cs = some (0, none)) (rest : List Char)
    (p : Position) :
    placeholder depth quote (cs ++ '\x7d' :: rest) p =
      some (cs, ⟨rest, p.after (cs ++ ['\x7d'])⟩) := by
  fun_induction scan depth quote cs generalizing p
  case case1 =>
    cases h
    rfl
  case case2 | case5 => cases h
  all_goals simp_all [placeholder, keep, Position.after]

def heeded : List Char := ['"', '\'', '\x7b', '\x7d']

theorem scan_unheeded (plain : ∀ c ∈ cs, c ∉ heeded) : scan depth none cs = some (depth, none) := by
  induction cs with
  | nil => rfl
  | cons c cs ih =>
    obtain ⟨first, rest⟩ := List.forall_mem_cons.1 plain
    have := ih rest
    simp_all [scan, heeded]

def unheeded (f : Char → Bool) : Bool := heeded.all fun c => !f c

theorem unheeded_of_class {f : Char → Bool} (none : unheeded f) (h : f c) : c ∉ heeded := by
  intro mem
  have := List.all_eq_true.1 none c mem
  simp [h] at this

def Clear (s s' : Cursor) : Prop := ∃ cs, s.Passes cs s' ∧ ∀ c ∈ cs, c ∉ heeded

namespace Clear
variable {s s' s'' : Cursor}

theorem refl (s : Cursor) : Clear s s := ⟨[], .nil, List.forall_mem_nil _⟩

theorem trans (h : Clear s s') (h' : Clear s' s'') : Clear s s'' := by
  obtain ⟨cs, passed, plain⟩ := h
  obtain ⟨cs', passed', plain'⟩ := h'
  exact ⟨cs ++ cs', passed.trans passed', List.forall_mem_append.2 ⟨plain, plain'⟩⟩

theorem next (first : s.rest = c :: cs) (plain : c ∉ heeded) : Clear s s.next :=
  ⟨[c], Cursor.passes_next first, List.forall_mem_singleton.2 plain⟩

theorem cons {p : Position} (plain : c ∉ heeded) (h : Clear ⟨cs, p.advance c⟩ s') :
    Clear ⟨c :: cs, p⟩ s' := (next rfl plain).trans h

theorem takeWhile {f : Char → Bool} (none : unheeded f) (cs : List Char) (p : Position) :
    Clear ⟨cs, p⟩ (Cursor.takeWhile f cs p).2 := by
  induction cs generalizing p with
  | nil => exact .refl _
  | cons c cs ih =>
    rw [Cursor.takeWhile]
    split
    next h => exact .cons (unheeded_of_class none h) (ih _)
    next => exact .refl _

theorem span {f : Char → Bool} (none : unheeded f) (s : Cursor) : Clear s (s.span f).2 :=
  takeWhile none s.rest s.pos

end Clear

theorem word_clear (s : Cursor) : Clear s (word s).2 := by
  have run : Clear s (s.span continuesName).2 := .span (by decide) s
  unfold word
  dsimp only
  split
  next c cs ahead =>
    split
    next marked =>
      refine run.trans (.next ahead ?_)
      simp only [Bool.and_eq_true, Bool.or_eq_true, decide_eq_true_eq] at marked
      rcases marked.1 with rfl | rfl <;> decide
    next => exact run
  next => exact run

theorem number_clear (s : Cursor) : Clear s (number s).2 := by
  have run : Clear s (s.span fun c => c.isDigit || c == '_').2 := .span (by decide) s
  unfold number
  dsimp only
  split
  next ahead =>
    split
    · exact run.trans ((Clear.next ahead (by decide)).trans (.span (by decide) _))
    · exact run
  next => exact run

def commentAhead : List Char → Bool
  | [] => false
  | c :: cs =>
      if c = '\\' then
        match cs with
        | '\n' :: cs => commentAhead cs
        | _ => false
      else c = '#' || c != '\n' && isBlank c && commentAhead cs

theorem skipBlanks_clear {p : Position} (none : commentAhead cs = false) :
    Clear ⟨cs, p⟩ (skipBlanks false cs p) := by
  fun_induction commentAhead cs generalizing p
  case case1 => exact .refl _
  case case2 ih =>
    rw [skipBlanks]
    exact .cons (by decide) (.cons (by decide) (ih none))
  case case3 cs other =>
    have blank : isBlank '\\' = false := by decide
    have stay : skipBlanks false ('\\' :: cs) p = ⟨'\\' :: cs, p⟩ := by
      rw [skipBlanks]
      · simp [blank]
      · exact fun cs _ eq => other cs eq
    rw [stay]
    exact .refl _
  case case4 c cs other ih =>
    rw [skipBlanks]
    · simp only [Bool.false_or]
      split
      · exact .refl _
      next newline =>
        split
        next blank =>
          have none : commentAhead cs = false := by simp_all
          exact .cons (unheeded_of_class (by decide) blank) (ih none)
        next =>
          have hash : c ≠ '#' := by simp_all
          rw [if_neg hash]
          exact .refl _
    · exact fun _ eq => absurd eq other

variable {s s' : Cursor} {t : Token}

/-- Both escapes of a raw string are escapes for the search, and what else a backslash stands before
does not close the string. -/
theorem rawText_scanned {text : List Char} {p : Position} (h : rawText rest p = some (text, s')) :
    ∃ cs, (⟨rest, p⟩ : Cursor).Passes cs s' ∧
      ∀ depth, scan depth (some '\'') cs = some (depth, none) := by
  fun_induction rawText rest p generalizing text s'
  case case1 => cases h
  case case2 =>
    cases h
    exact ⟨_, Cursor.Passes.nil.cons, fun depth => by simp [scan]⟩
  case case3 ih | case4 ih =>
    obtain ⟨run, found, rfl⟩ := keep_eq_some h
    obtain ⟨cs, passed, scanned⟩ := ih found
    exact ⟨_, passed.cons.cons, scanned⟩
  case case5 c rest p closing quoted escaped ih =>
    obtain ⟨run, found, rfl⟩ := keep_eq_some h
    obtain ⟨cs, passed, scanned⟩ := ih found
    refine ⟨_, passed.cons, fun depth => ?_⟩
    by_cases backslash : c = '\\'
    · -- The search takes the next character with it, which does not end the string.
      subst backslash
      cases cs with
      | nil => cases scanned depth
      | cons e cs =>
        have ahead : rest = e :: (cs ++ s'.rest) := passed.1
        have plain : e ≠ '\\' := fun eq => escaped _ rfl (eq ▸ ahead)
        have inside : e ≠ '\'' := fun eq => quoted _ rfl (eq ▸ ahead)
        have := scanned depth
        rw [scan_within plain inside] at this
        simpa [scan] using this
    · rw [scan_within backslash closing]
      exact scanned depth

def Unnoticed (source : String) : Prop := scan 0 (some '"') source.toList = some (0, some '"')

theorem pieces_scanned {opened : Position} {budget : List Char} {ps : List Piece}
    (h : pieces opened budget s = .ok (ps, s'))
    (holes : ∀ hole ∈ ps.filterMap Piece.hole?, Unnoticed hole.1) :
    ∃ cs, s.Passes cs s' ∧ ∀ depth, scan depth (some '"') cs = some (depth, none) := by
  fun_induction pieces opened budget s generalizing ps s'
  case case1 | case2 | case4 | case6 => cases h
  case case3 =>
    cases h
    exact ⟨_, Cursor.Passes.nil.cons, fun depth => by simp [scan]⟩
  case case5 ih =>
    obtain ⟨⟨rest, t⟩, run, h⟩ := bind_eq_ok.1 h
    cases h
    obtain ⟨cs, passed, scanned⟩ := ih run holes
    exact ⟨_, passed.cons.cons, scanned⟩
  case case7 source t found ih =>
    obtain ⟨⟨rest, t'⟩, run, h⟩ := bind_eq_ok.1 h
    cases h
    obtain ⟨first, holes⟩ := List.forall_mem_cons.1 holes
    obtain ⟨cs, passed, scanned⟩ := ih run holes
    refine ⟨_, ((placeholder_passes found).trans passed).cons.cons, fun depth => ?_⟩
    have inside (more : List Char) :
        scan depth (some '"') (source ++ more) = scan depth (some '"') more := by
      rw [Unnoticed, String.toList_ofList] at first
      simpa using scan_behind first depth more
    rw [scan_within (by decide) (by decide), scan_within (by decide) (by decide),
      List.append_assoc, inside, List.singleton_append,
      scan_within (by decide) (by decide)]
    exact scanned depth
  case case8 c cs' closing lone escape _ ih =>
    obtain ⟨⟨rest, t⟩, run, h⟩ := bind_eq_ok.1 h
    cases h
    obtain ⟨cs, passed, scanned⟩ := ih run holes
    have plain : c ≠ '\\' := by
      rintro rfl
      cases cs' with
      | nil => exact lone rfl rfl
      | cons e cs' => exact escape e cs' rfl rfl
    exact ⟨_, passed.cons, fun depth => by rw [scan_within plain closing]; exact scanned depth⟩

def braces (depth : Nat) : Token → Option Nat
  | .lbrace => some (depth + 1)
  | .rbrace => if depth = 0 then none else some (depth - 1)
  | _ => some depth

def Counts (s : Cursor) (t : Token) (s' : Cursor) : Prop :=
  ∃ cs, s.Passes cs s' ∧ ∀ depth, scan depth none cs = (braces depth t).map (·, none)

theorem Clear.counts (h : Clear s s') (plain : ∀ depth, braces depth t = some depth) :
    Counts s t s' := by
  obtain ⟨cs, passed, plain'⟩ := h
  exact ⟨cs, passed, fun depth => by rw [scan_unheeded plain', plain]; rfl⟩

theorem string_counts (quote : s.rest = '"' :: cs) (h : string s = .ok (t, s'))
    (holes : ∀ hole ∈ t.holes, Unnoticed hole.1) : Counts s t s' := by
  obtain ⟨⟨ps, t'⟩, run, h⟩ := bind_eq_ok.1 h
  cases h
  rw [holes_segmentsOf] at holes
  obtain ⟨cs, passed, scanned⟩ := pieces_scanned run holes
  exact ⟨_, (Cursor.passes_next quote).trans passed, scanned⟩

theorem rawString_counts (quote : s.rest = '\'' :: cs) (h : rawString s = .ok (t, s')) :
    Counts s t s' := by
  unfold rawString at h
  split at h
  next text t found =>
    cases h
    obtain ⟨cs, passed, scanned⟩ := rawText_scanned found
    exact ⟨_, (Cursor.passes_next quote).trans passed, scanned⟩
  next => cases h

theorem longer_counts {second : Char} {yes no : Token} (first : s.rest = c :: cs)
    (plain : c ∉ heeded) (plain' : second ∉ heeded)
    (plainYes : ∀ depth, braces depth yes = some depth)
    (plainNo : ∀ depth, braces depth no = some depth) :
    Counts s (longer s second yes no).1 (longer s second yes no).2 := by
  have passed : Clear s s.next := .next first plain
  unfold longer
  split
  next found =>
    obtain ⟨cs, ahead⟩ := List.head?_eq_some_iff.1 found
    exact (passed.trans (.next ahead plain')).counts plainYes
  next => exact passed.counts plainNo

theorem doubled_counts {token : Token} (first : s.rest = c :: cs) (plain : c ∉ heeded)
    (plainToken : ∀ depth, braces depth token = some depth) (h : doubled s c token = .ok (t, s')) :
    Counts s t s' := by
  unfold doubled at h
  split at h
  next found =>
    cases h
    obtain ⟨cs, ahead⟩ := List.head?_eq_some_iff.1 found
    exact ((Clear.next first plain).trans (.next ahead plain)).counts plainToken
  next => cases h

theorem braces_ofWord (word : String) : braces depth (.ofWord word) = some depth := by
  unfold Token.ofWord
  split <;> rfl

theorem scan_punctuation (h : punctuation? c = some t) :
    scan depth none [c] = (braces depth t).map (·, none) := by
  unfold punctuation? at h
  split at h <;> cases h
  case h_8 => cases depth <;> rfl
  all_goals rfl

theorem next_counts {prev : Option Token} (h : next prev s = .ok (t, s')) (notEnd : t ≠ .eof)
    (holes : ∀ hole ∈ t.holes, Unnoticed hole.1) : Counts s t s' := by
  unfold next at h
  split at h
  next =>
    cases h
    exact absurd rfl notEnd
  next c cs first =>
    split at h
    next punctuation =>
      cases h
      exact ⟨[c], Cursor.passes_next first, fun _ => scan_punctuation punctuation⟩
    next =>
      split at h
      iterate 4
        obtain ⟨rfl, rfl⟩ := Prod.mk.inj (Except.ok.inj h)
        exact longer_counts first (by decide) (by decide) (fun _ => rfl) fun _ => rfl
      iterate 2 exact doubled_counts first (by decide) (fun _ => rfl) h
      · have colon : Clear s s.next := .next first (by decide)
        split at h
        · cases h
          exact (colon.trans (word_clear s.next)).counts fun _ => rfl
        · cases h
          exact colon.counts fun _ => rfl
      · exact string_counts first h holes
      · exact rawString_counts first h
      · split at h
        · cases h
          exact (number_clear s).counts fun _ => rfl
        · split at h
          · cases h
            exact (word_clear s).counts fun _ => braces_ofWord _
          · cases h

theorem rest_of_next_eof {prev : Option Token} (h : next prev s = .ok (.eof, s')) :
    s.rest = [] := by
  unfold next at h
  split at h
  next none => exact none
  next c cs first =>
    split at h
    next punctuation =>
      cases h
      unfold punctuation? at punctuation
      split at punctuation <;> cases punctuation
    next =>
      split at h
      iterate 4
        unfold longer at h
        split at h <;> cases h
      iterate 2
        unfold doubled at h
        split at h <;> cases h
      · split at h <;> cases h
      · obtain ⟨_, _, h⟩ := bind_eq_ok.1 h
        cases h
      · unfold rawString at h
        split at h <;> cases h
      · split at h
        · cases h
        · split at h
          · have token := congrArg Prod.fst (Except.ok.inj h)
            dsimp only at token
            unfold Token.ofWord at token
            split at token <;> cases token
          · cases h

theorem next_congr {prev prev' : Option Token} (keys : endsKey prev = endsKey prev') (s : Cursor) :
    next prev s = next prev' s := by
  unfold next
  rw [keys]

theorem length_of_takes (h : Takes s t s') : s'.rest.length < s.rest.length := by
  obtain ⟨⟨cs, passed⟩, inside, before, holed⟩ := h
  cases cs with
  | nil => exact absurd (before.trans_le holed.le) (passed.2 ▸ lt_irrefl s.pos)
  | cons c cs =>
    rw [passed.1, List.cons_append, List.length_cons, List.length_append]
    omega

def uncommented : (fuel : Nat) → (prev : Option Token) → Cursor → Bool
  | 0, _, _ => true
  | fuel + 1, prev, s =>
      !commentAhead s.rest &&
        match next prev (skipBlanks false s.rest s.pos) with
        | .ok (token, s') => token = .eof || uncommented fuel (some token) s'
        | .error _ => true

def bracesAll (depth : Nat) : List Lexeme → Option Nat
  | [] => some depth
  | l :: ls =>
      if l.token = .eof then some depth else (braces depth l.token).bind (bracesAll · ls)

theorem Counts.scan (h : Counts s t s') {k : Nat} (counted : braces depth t = some k) :
    Lexer.scan depth none s.rest = Lexer.scan k none s'.rest := by
  obtain ⟨cs, passed, counts⟩ := h
  rw [passed.1]
  exact scan_behind (by rw [counts, counted]; rfl) 0 s'.rest

/-- Over a text without comments the search counts just the tokens. The limit on their number does
not end the reading, and which newlines are left out does not matter to what is read. -/
theorem scan_of_tokens {fuel : Nat} {prev prev' : Option Token} {ls : List Lexeme}
    (h : tokens fuel prev s = .ok ls) (room : s.rest.length < fuel)
    (keys : endsKey prev = endsKey prev') (free : uncommented fuel prev' s)
    (holes : ∀ l ∈ ls, ∀ hole ∈ l.token.holes, Unnoticed hole.1)
    (counted : bracesAll depth ls = some depth') :
    scan depth none s.rest = some (depth', none) := by
  induction fuel generalizing prev prev' s ls depth with
  | zero => exact absurd room (Nat.not_lt_zero _)
  | succ fuel ih =>
    rw [uncommented, Bool.and_eq_true, Bool.not_eq_true'] at free
    obtain ⟨noComment, free⟩ := free
    obtain ⟨_, skipped⟩ := skipBlanks_passes false s.rest s.pos
    have shorter : (skipBlanks false s.rest s.pos).rest.length ≤ s.rest.length := by
      have parts : s.rest.length = _ := congrArg List.length skipped.1
      rw [parts, List.length_append]
      exact Nat.le_add_left _ _
    have blank : Counts s .newline (skipBlanks false s.rest s.pos) :=
      (skipBlanks_clear noComment).counts fun _ => rfl
    rw [blank.scan rfl]
    rw [tokens] at h
    dsimp only at h
    generalize skipBlanks false s.rest s.pos = s₁ at h free shorter
    obtain ⟨⟨t, s₂⟩, token, h⟩ := bind_eq_ok.1 h
    rw [← next_congr keys, token] at free
    dsimp only at h free
    split at h
    next ends =>
      subst ends
      cases h
      cases counted
      rw [rest_of_next_eof token]
      rfl
    next notEnd =>
      have behind : s₂.rest.length < fuel := by
        have := length_of_takes (next_takes token notEnd)
        omega
      rw [Bool.or_eq_true, decide_eq_true_eq] at free
      have free := free.resolve_left notEnd
      split at h
      next newline =>
        have same : endsKey prev = endsKey (some t) := by
          rw [newline.1]
          rcases newline.2 with rfl | rfl <;> rfl
        have counts : Counts s₁ t s₂ := next_counts token notEnd (by simp [newline.1, Token.holes])
        rw [counts.scan (by rw [newline.1]; rfl)]
        exact ih h behind same free holes counted
      next =>
        obtain ⟨rest, more, h⟩ := bind_eq_ok.1 h
        cases h
        obtain ⟨first, holes⟩ := List.forall_mem_cons.1 holes
        rw [bracesAll, if_neg notEnd, Option.bind_eq_some_iff] at counted
        obtain ⟨k, here, counted⟩ := counted
        rw [(next_counts token notEnd first).scan here]
        exact ih more behind rfl free holes counted

end WidgetScript.Lexer
