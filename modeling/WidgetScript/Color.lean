import WidgetScript.Number.Parts
import WidgetScript.Number.Read
import WidgetScript.Text.Character
import WidgetScript.Text.Diagnostic

/-! Colours with eight bits a channel. They are carried as they are: nothing here
premultiplies or converts them. -/
namespace WidgetScript

structure Color where
  red : UInt8
  green : UInt8
  blue : UInt8
  alpha : UInt8
deriving DecidableEq, Repr

namespace Color

/-- A channel from 0 to 255, rounded to the nearest byte. -/
def channel? (x : Float) : Option UInt8 :=
  if x.isFinite && 0.0 ≤ x && x ≤ 255.0 then some (UInt8.ofNat (Number.round x).toNat) else none

/-- Alpha from 0 to 1 is a fraction and above that a byte, so 1 is fully opaque. -/
def ofChannels? (red green blue alpha : Float) : Option Color := do
  let a ← channel? (if 0.0 ≤ alpha && alpha ≤ 1.0 then alpha * 255.0 else alpha)
  let r ← channel? red
  let g ← channel? green
  let b ← channel? blue
  some ⟨r, g, b, a⟩

def bytes? : List Char → Option (List UInt8)
  | [] => some []
  | [_] => none
  | a :: b :: cs => do
      let high ← Text.hexValue? a
      let low ← Text.hexValue? b
      let rest ← bytes? cs
      some (UInt8.ofNat (16 * high + low) :: rest)

def ofHex? (cs : List Char) : Option Color :=
  match bytes? cs with
  | some [r, g, b] => some ⟨r, g, b, 255⟩
  | some [r, g, b, a] => some ⟨r, g, b, a⟩
  | _ => none

/-- The parts of a list between commas; there is always one. -/
def splitCommas : List Char → List (List Char)
  | [] => [[]]
  | c :: cs =>
      match splitCommas cs with
      | part :: parts => if c = ',' then [] :: part :: parts else (c :: part) :: parts
      | [] => [[c]]

def inside? (opening : String) (cs : List Char) : Option (List Char) :=
  if opening.toList.isPrefixOf cs then
    let rest := cs.drop opening.length
    if rest.getLast? = some ')' then some rest.dropLast else none
  else none

def numbers? (cs : List Char) : Option (List Float) :=
  (splitCommas cs).mapM fun part => Number.ofText? (String.ofList (Text.trim part))

/-- Reads `#rrggbb`, `#rrggbbaa`, `rgb(r, g, b)` and `rgba(r, g, b, a)`. -/
def ofText? (text : String) : Option Color :=
  match Text.trim text.toList with
  | '#' :: cs => ofHex? cs
  | cs =>
      match inside? "rgba(" cs, inside? "rgb(" cs with
      | some args, _ =>
          match numbers? args with
          | some [r, g, b, a] => ofChannels? r g b a
          | _ => none
      | none, some args =>
          match numbers? args with
          | some [r, g, b] => ofChannels? r g b 1.0
          | _ => none
      | none, none => none

def text (c : Color) : String :=
  "#" ++ String.join ([c.red, c.green, c.blue, c.alpha].map fun n => Text.hexPadded 2 n.toNat)

end Color
end WidgetScript
