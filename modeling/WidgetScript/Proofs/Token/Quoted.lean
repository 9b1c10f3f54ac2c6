import WidgetScript.Proofs.Token.Places

/-! Every text can be written as a string in quotes of either kind. Double quotes need a backslash
before a hash as well, since a brace behind it would begin a placeholder. The other characters,
line ends among them, stand for themselves. -/
namespace WidgetScript.Lexer

def escape (marks : List Char) (cs : List Char) : List Char :=
  cs.flatMap fun c => if c ∈ marks then ['\\', c] else [c]

def doubleMarks : List Char := ['"', '\\', '#']

def singleMarks : List Char := ['\'', '\\']

def doubleQuoted (text : String) : String :=
  String.ofList ('"' :: (escape doubleMarks text.toList ++ ['"']))

def singleQuoted (text : String) : String :=
  String.ofList ('\'' :: (escape singleMarks text.toList ++ ['\'']))

variable {marks budget cs : List Char} {c : Char}

theorem escape_cons_of_mem (mark : c ∈ marks) :
    escape marks (c :: cs) = '\\' :: c :: escape marks cs := by
  rw [escape, List.flatMap_cons, if_pos mark]
  rfl

theorem escape_cons_of_not_mem (plain : c ∉ marks) :
    escape marks (c :: cs) = c :: escape marks cs := by
  rw [escape, List.flatMap_cons, if_neg plain]
  rfl

theorem length_le_escape (marks cs : List Char) : cs.length ≤ (escape marks cs).length := by
  induction cs with
  | nil => exact Nat.le_refl 0
  | cons c cs ih =>
    by_cases mark : c ∈ marks
    · rw [escape_cons_of_mem mark]
      exact Nat.le_succ_of_le (Nat.succ_le_succ ih)
    · rw [escape_cons_of_not_mem mark]
      exact Nat.succ_le_succ ih

theorem unescape_of_mem (mark : c ∈ doubleMarks) : unescape c = c := by
  obtain rfl | rfl | rfl : c = '"' ∨ c = '\\' ∨ c = '#' := by simpa [doubleMarks] using mark
  all_goals rfl

theorem pieces_escape (opened : Position) (rest : List Char) (p : Position)
    (enough : cs.length < budget.length) :
    pieces opened budget ⟨escape doubleMarks cs ++ '"' :: rest, p⟩ =
      .ok (cs.map .char, ⟨rest, p.after (escape doubleMarks cs ++ ['"'])⟩) := by
  induction cs generalizing budget p with
  | nil =>
    obtain ⟨b, budget, rfl⟩ := List.exists_cons_of_length_pos enough
    rfl
  | cons c cs ih =>
    obtain ⟨b, budget, rfl⟩ := List.exists_cons_of_length_pos (Nat.zero_lt_of_lt enough)
    have more : cs.length < budget.length := Nat.lt_of_succ_lt_succ enough
    by_cases mark : c ∈ doubleMarks
    · rw [escape_cons_of_mem mark, List.cons_append, List.cons_append, pieces, ih _ more,
        unescape_of_mem mark]
      rfl
    · obtain ⟨notQuote, notSlash, notHash⟩ : c ≠ '"' ∧ c ≠ '\\' ∧ c ≠ '#' := by
        simpa [doubleMarks] using mark
      rw [escape_cons_of_not_mem mark, List.cons_append, pieces, ih _ more]
      · rfl
      · exact notQuote
      · exact fun slash _ => notSlash slash
      · exact fun _ _ slash _ => notSlash slash
      · exact fun _ hash _ => notHash hash

theorem segments_char (text cs : List Char) :
    segments text (cs.map .char) = segments (text ++ cs) [] := by
  induction cs generalizing text with
  | nil => rw [List.append_nil]; rfl
  | cons c cs ih =>
    change segments (text ++ [c]) (cs.map .char) = _
    rw [ih, List.append_assoc]
    rfl

theorem segmentsOf_char (cs : List Char) :
    segmentsOf (cs.map .char) = [.text (String.ofList cs)] := by
  rw [segmentsOf, segments_char]
  cases cs <;> rfl

theorem string_escape (cs rest : List Char) (p : Position) :
    string ⟨'"' :: (escape doubleMarks cs ++ '"' :: rest), p⟩ =
      .ok (.str [.text (String.ofList cs)],
        ⟨rest, p.after ('"' :: (escape doubleMarks cs ++ ['"']))⟩) := by
  have enough : cs.length < ('"' :: (escape doubleMarks cs ++ '"' :: rest)).length := by
    have := length_le_escape doubleMarks cs
    rw [List.length_cons, List.length_append]
    omega
  unfold string
  rw [Cursor.next, pieces_escape p rest _ enough]
  exact congrArg (fun ss => Except.ok (Token.str ss, _)) (segmentsOf_char cs)

/-- A backslash that stands before no mark cannot come up, since it is a mark itself. -/
theorem rawText_escape (cs rest : List Char) (p : Position) :
    rawText (escape singleMarks cs ++ '\'' :: rest) p =
      some (cs, ⟨rest, p.after (escape singleMarks cs ++ ['\''])⟩) := by
  induction cs generalizing p with
  | nil => rfl
  | cons c cs ih =>
    by_cases mark : c ∈ singleMarks
    · rw [escape_cons_of_mem mark, List.cons_append, List.cons_append]
      obtain rfl | rfl : c = '\'' ∨ c = '\\' := by simpa [singleMarks] using mark
      all_goals
        rw [rawText, ih]
        rfl
    · obtain ⟨notQuote, notSlash⟩ : c ≠ '\'' ∧ c ≠ '\\' := by simpa [singleMarks] using mark
      rw [escape_cons_of_not_mem mark, List.cons_append, rawText, ih]
      · rfl
      · exact notQuote
      · exact fun _ slash _ => notSlash slash
      · exact fun _ slash _ => notSlash slash

theorem rawString_escape (cs rest : List Char) (p : Position) :
    rawString ⟨'\'' :: (escape singleMarks cs ++ '\'' :: rest), p⟩ =
      .ok (.str [.text (String.ofList cs)],
        ⟨rest, p.after ('\'' :: (escape singleMarks cs ++ ['\'']))⟩) := by
  unfold rawString
  rw [Cursor.next, rawText_escape]
  rfl

theorem tokenize_single {source : String} {t : Token} {q : Position}
    (text : source.toList = c :: cs)
    (stands : skipBlanks false (c :: cs) .start = ⟨c :: cs, .start⟩)
    (whole : next none ⟨c :: cs, .start⟩ = .ok (t, ⟨[], q⟩)) (notEnd : t ≠ .eof)
    (notLine : t ≠ .newline) : tokenize source = .ok [⟨t, .start⟩, ⟨.eof, q⟩] := by
  rw [tokenize, tokenizeAt, text, List.length_cons]
  exact tokens_cons stands whole notEnd notLine rfl

/-- Written in quotes of either kind, any text is read back as it is. -/
theorem tokenize_quoted (text : String) :
    tokenize (doubleQuoted text) = .ok [⟨.str [.text text], .start⟩,
      ⟨.eof, Position.start.after (doubleQuoted text).toList⟩] ∧
    tokenize (singleQuoted text) = .ok [⟨.str [.text text], .start⟩,
      ⟨.eof, Position.start.after (singleQuoted text).toList⟩] := by
  have double := string_escape text.toList [] .start
  have single := rawString_escape text.toList [] .start
  rw [String.ofList_toList] at double single
  constructor
  · have read := String.toList_ofList (l := '"' :: (escape doubleMarks text.toList ++ ['"']))
    rw [doubleQuoted, read]
    exact tokenize_single read rfl double nofun nofun
  · have read := String.toList_ofList (l := '\'' :: (escape singleMarks text.toList ++ ['\'']))
    rw [singleQuoted, read]
    exact tokenize_single read rfl single nofun nofun

example : doubleQuoted "a#\x7bb\x7d" = "\"a\\#\x7bb\x7d\"" := by decide

end WidgetScript.Lexer
