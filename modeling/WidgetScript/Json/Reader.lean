import WidgetScript.Json.Basic
import WidgetScript.Number.Read

/-! Reading JSON strictly: one value, blanks around it and nothing else. Containers
nest to a fixed number of levels, a string holds whole characters only and a number
that overflows is refused. A value that the reader is to ignore must be well formed,
but none of these three limits applies to it. -/
namespace WidgetScript.Json

abbrev Reader := StateT (List Char) Option

def maxLevels : Nat := 127

namespace Reader

def isSpace (c : Char) : Bool := c == ' ' || c == '\n' || c == '\t' || c == '\r'

def skipSpace : Reader Unit := modify (·.dropWhile isSpace)

def next : Reader Char := fun
  | [] => none
  | c :: cs => some (c, cs)

def expect (c : Char) : Reader Unit := do
  let found ← next
  if found = c then pure () else failure

def word (text : String) : Reader Unit := text.toList.forM expect

def digits : Reader (List Char) := fun cs => some (cs.takeWhile Char.isDigit, cs.dropWhile Char.isDigit)

def someDigits : Reader (List Char) := do
  let ds ← digits
  if ds.isEmpty then failure else pure ds

def whole : Reader (List Char) := do
  let ds ← someDigits
  if ds.head? = some '0' && 1 < ds.length then failure else pure ds

def fraction : Reader (List Char) := do
  match ← get with
  | '.' :: cs => set cs; someDigits
  | _ => pure []

def exponent : Reader Int := do
  match ← get with
  | c :: cs =>
      if c = 'e' || c = 'E' then
        let (negative, rest) := Number.dropSign cs
        set rest
        let n := Number.digitsValue (← someDigits)
        pure (if negative then -(n : Int) else n)
      else pure 0
  | [] => pure 0

def written : Reader (Bool × Number.Written) := do
  let negative ← match ← get with
    | '-' :: cs => set cs; pure true
    | _ => pure false
  let ws ← whole
  let fs ← fraction
  let e ← exponent
  pure (negative, ⟨ws, fs, e⟩)

def number : Reader Float := do
  let (negative, w) ← written
  match w.json? with
  | some x => pure (if negative then -x else x)
  | none => failure

def hexUnit : Reader Nat := do
  let a ← Text.hexValue? (← next)
  let b ← Text.hexValue? (← next)
  let c ← Text.hexValue? (← next)
  let d ← Text.hexValue? (← next)
  pure (((a * 16 + b) * 16 + c) * 16 + d)

/-- A code unit below the surrogates is a character; two surrogates in order make one. -/
def unicodeEscape : Reader Char := do
  let lead ← hexUnit
  if lead < 0xd800 || 0xe000 ≤ lead then pure (Char.ofNat lead)
  else if 0xdc00 ≤ lead then failure
  else
    word "\\u"
    let trail ← hexUnit
    if 0xdc00 ≤ trail && trail < 0xe000 then
      pure (Char.ofNat (0x10000 + (lead - 0xd800) * 0x400 + (trail - 0xdc00)))
    else failure

def escaped : Reader Char := do
  match ← next with
  | '"' => pure '"'
  | '\\' => pure '\\'
  | '/' => pure '/'
  | 'b' => pure '\x08'
  | 'f' => pure '\x0c'
  | 'n' => pure '\n'
  | 'r' => pure '\r'
  | 't' => pure '\t'
  | 'u' => unicodeEscape
  | _ => failure

def characters (read : Reader Char) : (fuel : Nat) → Reader (List Char)
  | 0 => failure
  | fuel + 1 => do
      match ← next with
      | '"' => pure []
      | '\\' => do
          let c ← read
          pure (c :: (← characters read fuel))
      | c => if c.toNat < 32 then failure else pure (c :: (← characters read fuel))

def stringWith (read : Reader Char) : Reader String := do
  expect '"'
  pure (String.ofList (← characters read (← get).length))

def string : Reader String := stringWith escaped

def separated {α : Type} (item : Reader α) (close : Char) : (fuel : Nat) → Reader (List α)
  | 0 => failure
  | fuel + 1 => do
      let x ← item
      skipSpace
      match ← next with
      | ',' => pure (x :: (← separated item close fuel))
      | c => if c = close then pure [x] else failure

def sequenceOf {α : Type} (item : Reader α) (close : Char) : Reader (List α) := do
  skipSpace
  match ← get with
  | c :: cs => if c = close then set cs; pure [] else separated item close (cs.length + 1)
  | [] => failure

def field {α : Type} (key : Reader String) (value : Reader α) : Reader (String × α) := do
  skipSpace
  let k ← key
  skipSpace
  expect ':'
  pure (k, ← value)

/-- One value; its containers hold what `inner` reads, and without it none may start. -/
def valueWith (inner : Option (Reader Json)) : Reader Json := do
  skipSpace
  match ← get with
  | 'n' :: _ => word "null"; pure .null
  | 't' :: _ => word "true"; pure (.bool true)
  | 'f' :: _ => word "false"; pure (.bool false)
  | '"' :: _ => .string <$> string
  | '[' :: cs => set cs; .array <$> sequenceOf (← inner) ']'
  | '{' :: cs => set cs; .object <$> sequenceOf (field string (← inner)) '}'
  | _ => .number <$> number

def value : (levels : Nat) → Reader Json
  | 0 => valueWith none
  | levels + 1 => valueWith (some (value levels))

/-- An escape in a value that is ignored need not name a character. -/
def anyEscape : Reader Char := do
  match ← next with
  | 'u' => do
      let _ ← hexUnit
      pure ' '
  | c => if "\"\\/bfnrt".contains c then pure ' ' else failure

def ignoredWith (inner : Reader Unit) : Reader Unit := do
  skipSpace
  match ← get with
  | 'n' :: _ => word "null"
  | 't' :: _ => word "true"
  | 'f' :: _ => word "false"
  | '"' :: _ => discard (stringWith anyEscape)
  | '[' :: cs => set cs; discard (sequenceOf inner ']')
  | '{' :: cs => set cs; discard (sequenceOf (field (stringWith anyEscape) inner) '}')
  | _ => discard written

/-- A value that is checked for form alone; a text of `fuel` characters is never too deep. -/
def ignored : (fuel : Nat) → Reader Unit
  | 0 => failure
  | fuel + 1 => ignoredWith (ignored fuel)

def run? {α : Type} (read : Reader α) (text : String) : Option α :=
  match read text.toList with
  | some (x, rest) => if rest.all isSpace then some x else none
  | none => none

end Reader

def parse? (text : String) : Option Json := Reader.run? (Reader.value maxLevels) text

end WidgetScript.Json
