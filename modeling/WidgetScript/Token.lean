import WidgetScript.Text.Position
import WidgetScript.Number.Text

/-! The tokens of the language. A string token keeps the source of its placeholders,
with the place where each begins, because a placeholder holds an expression that is
tokenized and parsed in its turn. -/
namespace WidgetScript

/-- A piece of a string token: plain text, or the source between the braces of a placeholder. -/
inductive Segment where
  | text (text : String)
  | placeholder (source : String) (pos : Position)
deriving DecidableEq, Repr

inductive Token where
  | ident (name : String)
  | str (segments : List Segment)
  | number (value : Float)
  | symbol (name : String)
  | defKw | doKw | endKw | ifKw | elseKw
  | trueKw | falseKw | nilKw | andKw | orKw | notKw
  | lparen | rparen | lbracket | rbracket | lbrace | rbrace
  | comma | colon | dot | assign
  | plus | minus | star | slash
  | eqEq | notEq | lt | le | gt | ge | bang
  | newline
  | eof
deriving DecidableEq, Repr

namespace Token

def describe : Token → String
  | .ident name => "identifier `" ++ name ++ "`"
  | .str _ => "string literal"
  | .number x => "number `" ++ Number.plainText x ++ "`"
  | .symbol name => "symbol `:" ++ name ++ "`"
  | .defKw => "`def`"
  | .doKw => "`do`"
  | .endKw => "`end`"
  | .ifKw => "`if`"
  | .elseKw => "`else`"
  | .trueKw => "`true`"
  | .falseKw => "`false`"
  | .nilKw => "`nil`"
  | .andKw => "`and`"
  | .orKw => "`or`"
  | .notKw => "`not`"
  | .lparen => "`(`"
  | .rparen => "`)`"
  | .lbracket => "`[`"
  | .rbracket => "`]`"
  | .lbrace => "`\x7b`"
  | .rbrace => "`\x7d`"
  | .comma => "`,`"
  | .colon => "`:`"
  | .dot => "`.`"
  | .assign => "`=`"
  | .plus => "`+`"
  | .minus => "`-`"
  | .star => "`*`"
  | .slash => "`/`"
  | .eqEq => "`==`"
  | .notEq => "`!=`"
  | .lt => "`<`"
  | .le => "`<=`"
  | .gt => "`>`"
  | .ge => "`>=`"
  | .bang => "`!`"
  | .newline => "end of line"
  | .eof => "end of input"

def ofWord : String → Token
  | "def" => .defKw
  | "do" => .doKw
  | "end" => .endKw
  | "if" => .ifKw
  | "else" => .elseKw
  | "true" => .trueKw
  | "false" => .falseKw
  | "nil" => .nilKw
  | "and" => .andKw
  | "or" => .orKw
  | "not" => .notKw
  | word => .ident word

end Token

structure Lexeme where
  token : Token
  pos : Position
deriving DecidableEq, Repr

end WidgetScript
