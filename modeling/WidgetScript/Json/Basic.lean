import WidgetScript.Number.Text
import WidgetScript.Text.Diagnostic

/-! JSON values. An object keeps its fields as written, in order and with repeated
keys, because what a repeated key means is for its reader to say. -/
namespace WidgetScript

inductive Json where
  | null
  | bool (value : Bool)
  | number (value : Float)
  | string (value : String)
  | array (items : List Json)
  | object (fields : List (String × Json))

namespace Json

/-- Only the quote, the backslash and the controls below space are escaped. -/
def escape (c : Char) : String :=
  match c with
  | '"' => "\\\""
  | '\\' => "\\\\"
  | '\x08' => "\\b"
  | '\x0c' => "\\f"
  | '\n' => "\\n"
  | '\r' => "\\r"
  | '\t' => "\\t"
  | c => if c.toNat < 32 then "\\u" ++ Text.hexPadded 4 c.toNat else c.toString

def quoted (s : String) : String := "\"" ++ String.join (s.toList.map escape) ++ "\""

mutual

def render : Json → String
  | .null => "null"
  | .bool b => if b then "true" else "false"
  | .number x => Number.wireText x
  | .string s => quoted s
  | .array items => "[" ++ String.intercalate "," (renderItems items) ++ "]"
  | .object fields => "\x7b" ++ String.intercalate "," (renderFields fields) ++ "\x7d"

def renderItems : List Json → List String
  | [] => []
  | item :: items => render item :: renderItems items

def renderFields : List (String × Json) → List String
  | [] => []
  | (key, value) :: fields => (quoted key ++ ":" ++ render value) :: renderFields fields

end

end Json
end WidgetScript
