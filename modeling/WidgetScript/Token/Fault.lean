import WidgetScript.Token

/-! Why a source text is not a script, where that shows, and what was found there.
The first fault ends the reading. -/
namespace WidgetScript

inductive Closer where
  | eof
  | ofDef (opened : Position)
  | ofIf (opened : Position)
  | ofThen (opened : Position)
  | ofDo (opened : Position)
  | ofBrace (opened : Position)
deriving DecidableEq, Repr

namespace Closer

/-- A then-branch ends at `else` or `end`, a braced block at its brace. -/
def accepts : Closer → Token → Bool
  | .eof, .eof => true
  | .ofDef _, .endKw => true
  | .ofIf _, .endKw => true
  | .ofDo _, .endKw => true
  | .ofThen _, .endKw => true
  | .ofThen _, .elseKw => true
  | .ofBrace _, .rbrace => true
  | _, _ => false

def describe : Closer → String
  | .eof => "end of input"
  | .ofDef p => "`end` to close the `def` opened at " ++ p.text
  | .ofIf p => "`end` to close the `if` opened at " ++ p.text
  | .ofThen p => "`else` or `end` to close the `if` opened at " ++ p.text
  | .ofDo p => "`end` to close the `do` block opened at " ++ p.text
  | .ofBrace p => "`\x7d` to close the block opened at " ++ p.text

end Closer

inductive SyntaxFault where
  | singleOperator (c : Char)
  | unexpectedCharacter
  | unterminatedString
  | unterminatedEscape
  | unterminatedPlaceholder
  | tooDeep (limit : Nat)
  | expected (token : Token)
  | expectedIdentifier
  | expectedValue
  | expectedMapKey
  | expectedEndOfStatement
  | unexpectedEnd (closer : Closer)
  | mismatchedTerminator (closer : Closer)
  | unclosedParameters
  | unclosedCall (name : String)
  | unclosedList
  | unclosedMap
  | duplicateParameter (name : String)
  | duplicateArgument (key name : String)
  | duplicateKey (key : String)
  | placeholderInKey
  | emptyPlaceholder
  | trailingInPlaceholder
deriving DecidableEq, Repr

def SyntaxFault.message : SyntaxFault → String
  | .singleOperator c => "expected `" ++ c.toString ++ c.toString ++ "`"
  | .unexpectedCharacter => "unexpected character"
  | .unterminatedString => "unterminated string literal"
  | .unterminatedEscape => "unterminated escape sequence"
  | .unterminatedPlaceholder => "unterminated interpolation"
  | .tooDeep limit => "nesting too deep (limit " ++ toString limit ++ ")"
  | .expected token => "expected " ++ token.describe
  | .expectedIdentifier => "expected identifier"
  | .expectedValue => "expected a value"
  | .expectedMapKey => "expected a map key"
  | .expectedEndOfStatement => "expected end of statement"
  | .unexpectedEnd closer => "unexpected end of input, expected " ++ closer.describe
  | .mismatchedTerminator closer => "mismatched block terminator, expected " ++ closer.describe
  | .unclosedParameters => "expected `,` or `)` in parameter list"
  | .unclosedCall name => "expected `,` or `)` in call to `" ++ name ++ "`"
  | .unclosedList => "expected `,` or `]` in list"
  | .unclosedMap => "expected `,` or `\x7d` in map"
  | .duplicateParameter name => "duplicate parameter `" ++ name ++ "`"
  | .duplicateArgument key name =>
      "duplicate keyword argument `" ++ key ++ "` in call to `" ++ name ++ "`"
  | .duplicateKey key => "duplicate key `" ++ key ++ "` in map literal"
  | .placeholderInKey => "map keys cannot be interpolated"
  | .emptyPlaceholder => "empty interpolation"
  | .trailingInPlaceholder => "unexpected token in interpolation"

structure SyntaxError where
  fault : SyntaxFault
  pos : Position
  found : Option String
deriving DecidableEq, Repr

def SyntaxError.message (e : SyntaxError) : String :=
  "syntax error at " ++ e.pos.text ++ ": " ++ e.fault.message ++
    match e.found with
    | some token => " (found " ++ token ++ ")"
    | none => ""

end WidgetScript
