import WidgetScript.Token.Fault
import WidgetScript.Text.Character
import WidgetScript.Text.Diagnostic
import WidgetScript.Number.Read

/-! From source text to tokens. Every function takes the characters ahead and their
place and gives the cursor after what it read; whatever may start at any place in a
file, a placeholder inside a string included, is read in the same way. -/
namespace WidgetScript.Lexer
open Text

/-- Blanks, comments and escaped line ends are skipped, a line end itself is not. -/
def skipBlanks (comment : Bool) : List Char → Position → Cursor
  | [], p => ⟨[], p⟩
  | '\\' :: '\n' :: cs, p =>
      if comment then ⟨'\n' :: cs, p.advance '\\'⟩
      else skipBlanks false cs ((p.advance '\\').advance '\n')
  | c :: cs, p =>
      if c = '\n' then ⟨c :: cs, p⟩
      else if comment || isBlank c then skipBlanks comment cs (p.advance c)
      else if c = '#' then skipBlanks true cs (p.advance c)
      else ⟨c :: cs, p⟩

/-- A run of name characters, with a closing `?` or `!` unless `=` follows that. -/
def word (s : Cursor) : String × Cursor :=
  let (run, s) := s.span continuesName
  match s.rest with
  | c :: cs =>
      if (c = '?' || c = '!') && cs.head? != some '=' then (String.ofList (run ++ [c]), s.next)
      else (String.ofList run, s)
  | [] => (String.ofList run, s)

/-- Digits that underscores may group, and a fraction if a digit follows the point. -/
def number (s : Cursor) : Float × Cursor :=
  let (whole, s) := s.span fun c => c.isDigit || c == '_'
  let whole := whole.filter (· != '_')
  match s.rest with
  | '.' :: c :: _ =>
      if c.isDigit then
        let (fraction, s) := s.next.span Char.isDigit
        (Number.Written.value ⟨whole, fraction, 0⟩, s)
      else (Number.Written.value ⟨whole, [], 0⟩, s)
  | _ => (Number.Written.value ⟨whole, [], 0⟩, s)

def keep (c : Char) (r : List Char × Cursor) : List Char × Cursor := (c :: r.1, r.2)

/-- The source of a placeholder up to the brace that closes it, which is consumed.
Braces nest, and those within a quoted string do not count. -/
def placeholder (depth : Nat) (quote : Option Char) :
    List Char → Position → Option (List Char × Cursor)
  | [], _ => none
  | c :: cs, p =>
      match quote with
      | some q =>
          match c, cs with
          | '\\', e :: cs =>
              (placeholder depth quote cs ((p.advance c).advance e)).map (keep c ∘ keep e)
          | c, cs =>
              (placeholder depth (if c = q then none else some q) cs (p.advance c)).map (keep c)
      | none =>
          match c, depth with
          | '\x7d', 0 => some ([], ⟨cs, p.advance c⟩)
          | '\x7d', depth + 1 => (placeholder depth none cs (p.advance c)).map (keep c)
          | '\x7b', depth => (placeholder (depth + 1) none cs (p.advance c)).map (keep c)
          | c, depth =>
              let opened := if c = '"' || c = '\'' then some c else none
              (placeholder depth opened cs (p.advance c)).map (keep c)

inductive Piece where
  | char (c : Char)
  | hole (source : String) (pos : Position)

/-- Neighbouring characters join into one text; a string without pieces is one empty text. -/
def segments (text : List Char) : List Piece → List Segment
  | [] => if text.isEmpty then [] else [.text (String.ofList text)]
  | .char c :: ps => segments (text ++ [c]) ps
  | .hole source pos :: ps =>
      (if text.isEmpty then [] else [.text (String.ofList text)])
        ++ .placeholder source pos :: segments [] ps

def segmentsOf (ps : List Piece) : List Segment :=
  match segments [] ps with
  | [] => [.text ""]
  | ss => ss

def unescape (c : Char) : Char :=
  match c with
  | 'n' => '\n'
  | 't' => '\t'
  | 'r' => '\r'
  | c => c

/-- The pieces up to the closing quote of the string opened at `opened`. Each takes a
character, so `budget` may be the text ahead; only its length counts. -/
def pieces (opened : Position) :
    (budget : List Char) → Cursor → Except SyntaxError (List Piece × Cursor)
  | [], _ => .error ⟨.unterminatedString, opened, some "`\"`"⟩
  | _ :: budget, ⟨rest, p⟩ =>
      match rest with
      | [] => .error ⟨.unterminatedString, opened, some "`\"`"⟩
      | '"' :: cs => .ok ([], ⟨cs, p.advance '"'⟩)
      | '\\' :: [] => .error ⟨.unterminatedEscape, opened, none⟩
      | '\\' :: c :: cs => do
          let (ps, s) ← pieces opened budget ⟨cs, (p.advance '\\').advance c⟩
          .ok (.char (unescape c) :: ps, s)
      | '#' :: '\x7b' :: cs => do
          let inside := (p.advance '#').advance '\x7b'
          match placeholder 0 none cs inside with
          | none => .error ⟨.unterminatedPlaceholder, p, some "`#\x7b`"⟩
          | some (source, s) =>
              let (ps, s) ← pieces opened budget s
              .ok (.hole (String.ofList source) inside :: ps, s)
      | c :: cs => do
          let (ps, s) ← pieces opened budget ⟨cs, p.advance c⟩
          .ok (.char c :: ps, s)

def string (s : Cursor) : Except SyntaxError (Token × Cursor) := do
  let (ps, s') ← pieces s.pos s.rest s.next
  .ok (.str (segmentsOf ps), s')

/-- The text of a single-quoted string up to its closing quote; only that quote and the
backslash can be escaped. -/
def rawText : List Char → Position → Option (List Char × Cursor)
  | [], _ => none
  | '\'' :: cs, p => some ([], ⟨cs, p.advance '\''⟩)
  | '\\' :: '\'' :: cs, p => (rawText cs ((p.advance '\\').advance '\'')).map (keep '\'')
  | '\\' :: '\\' :: cs, p => (rawText cs ((p.advance '\\').advance '\\')).map (keep '\\')
  | c :: cs, p => (rawText cs (p.advance c)).map (keep c)

def rawString (s : Cursor) : Except SyntaxError (Token × Cursor) :=
  match rawText s.next.rest s.next.pos with
  | some (text, s') => .ok (.str [.text (String.ofList text)], s')
  | none => .error ⟨.unterminatedString, s.pos, some "`'`"⟩

/-- After a name or a string a colon belongs to a key, so no symbol starts there. -/
def endsKey : Option Token → Bool
  | some (.ident _) => true
  | some (.str _) => true
  | _ => false

def longer (s : Cursor) (second : Char) (yes no : Token) : Token × Cursor :=
  if s.next.rest.head? = some second then (yes, s.next.next) else (no, s.next)

def doubled (s : Cursor) (c : Char) (token : Token) : Except SyntaxError (Token × Cursor) :=
  if s.next.rest.head? = some c then .ok (token, s.next.next)
  else .error ⟨.singleOperator c, s.pos, some ("`" ++ c.toString ++ "`")⟩

def punctuation? : Char → Option Token
  | '\n' => some .newline
  | ';' => some .newline
  | '(' => some .lparen
  | ')' => some .rparen
  | '[' => some .lbracket
  | ']' => some .rbracket
  | '\x7b' => some .lbrace
  | '\x7d' => some .rbrace
  | ',' => some .comma
  | '.' => some .dot
  | '+' => some .plus
  | '-' => some .minus
  | '*' => some .star
  | '/' => some .slash
  | _ => none

def next (prev : Option Token) (s : Cursor) : Except SyntaxError (Token × Cursor) :=
  match s.rest with
  | [] => .ok (.eof, s)
  | c :: cs =>
      match punctuation? c with
      | some token => .ok (token, s.next)
      | none =>
          match c with
          | '=' => .ok (longer s '=' .eqEq .assign)
          | '!' => .ok (longer s '=' .notEq .bang)
          | '<' => .ok (longer s '=' .le .lt)
          | '>' => .ok (longer s '=' .ge .gt)
          | '&' => doubled s '&' .andKw
          | '|' => doubled s '|' .orKw
          | ':' =>
              if !endsKey prev && (cs.head?.map startsName).getD false then
                let (name, s') := word s.next
                .ok (.symbol name, s')
              else .ok (.colon, s.next)
          | '"' => string s
          | '\'' => rawString s
          | c =>
              if c.isDigit then
                let (x, s') := number s
                .ok (.number x, s')
              else if startsName c then
                let (name, s') := word s
                .ok (Token.ofWord name, s')
              else .error ⟨.unexpectedCharacter, s.pos, some (quoteChar c)⟩

/-- The tokens from a cursor on. A line end that starts the list or follows another adds
no token. Every token but the last takes a character, so `fuel` may be their number plus one. -/
def tokens : (fuel : Nat) → (prev : Option Token) → Cursor → Except SyntaxError (List Lexeme)
  | 0, _, _ => .ok []
  | fuel + 1, prev, s => do
      let s := skipBlanks false s.rest s.pos
      let (token, s') ← next prev s
      if token = .eof then .ok [⟨.eof, s.pos⟩]
      else if token = .newline ∧ (prev = none ∨ prev = some .newline) then tokens fuel prev s'
      else
        let rest ← tokens fuel (some token) s'
        .ok (⟨token, s.pos⟩ :: rest)

def tokenizeAt (source : String) (origin : Position) : Except SyntaxError (List Lexeme) :=
  tokens (source.toList.length + 1) none ⟨source.toList, origin⟩

def tokenize (source : String) : Except SyntaxError (List Lexeme) :=
  tokenizeAt source .start

end WidgetScript.Lexer
