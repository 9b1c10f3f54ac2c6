/-! Decimal texts are read in two ways. Scripts and colours take the nearest
binary64 number. JSON keeps the leading digits that fit in 64 bits and scales them by
a power of ten, which can differ from the nearest number in the last place. -/
namespace WidgetScript.Number

def digitValue (c : Char) : Nat := c.toNat - '0'.toNat

def digitsValue (cs : List Char) : Nat := cs.foldl (fun n c => 10 * n + digitValue c) 0

def infinity : Float := 1.0 / 0.0

/-- The number nearest to `digits * 10 ^ exponent`, infinite beyond the range.
Sizes that are out of the range by far are settled without the power of ten. -/
def ofDecimal (digits : Nat) (exponent : Int) : Float :=
  let leading := (Nat.toDigits 10 digits).length + exponent
  if digits = 0 then 0.0
  else if 400 < leading then infinity
  else if leading < -400 then 0.0
  else Float.ofScientific digits (decide (exponent < 0)) exponent.natAbs

structure Written where
  whole : List Char
  fraction : List Char
  exponent : Int

def Written.value (w : Written) : Float :=
  ofDecimal (digitsValue (w.whole ++ w.fraction)) (w.exponent - w.fraction.length)

def dropSign : List Char → Bool × List Char
  | '-' :: cs => (true, cs)
  | '+' :: cs => (false, cs)
  | cs => (false, cs)

def exponent? : List Char → Option Int
  | [] => some 0
  | c :: cs =>
      let (negative, digits) := dropSign cs
      if (c = 'e' || c = 'E') && digits != [] && digits.all Char.isDigit then
        some (if negative then -(digitsValue digits : Int) else digitsValue digits)
      else none

def written? (cs : List Char) : Option Written :=
  let whole := cs.takeWhile Char.isDigit
  let rest := cs.dropWhile Char.isDigit
  let (fraction, rest) := match rest with
    | '.' :: rest => (rest.takeWhile Char.isDigit, rest.dropWhile Char.isDigit)
    | _ => ([], rest)
  if whole.isEmpty && fraction.isEmpty then none
  else (exponent? rest).map fun e => ⟨whole, fraction, e⟩

def ofText? (text : String) : Option Float :=
  let (negative, cs) := dropSign text.toList
  let sign : Float → Float := fun x => if negative then -x else x
  match String.ofList (cs.map Char.toLower) with
  | "inf" | "infinity" => some (sign infinity)
  | "nan" => some (0.0 / 0.0)
  | _ => (written? cs).map fun w => sign w.value

/-- `significand * 10 ^ exponent` with one rounding for the significand and one or two
for the scaling; `none` when it overflows. -/
def scaled? (significand : Nat) (exponent : Int) : Option Float :=
  let x := (UInt64.ofNat significand).toFloat
  let power (n : Nat) : Float := Float.ofScientific 1 false n
  let n := exponent.natAbs
  if significand = 0 then some 0.0
  else if 0 ≤ exponent then
    if 308 < n || (x * power n).isInf then none else some (x * power n)
  else if n ≤ 308 then some (x / power n)
  else if n ≤ 616 then some (x / power 308 / power (n - 308))
  else some 0.0

def keepDigits : Nat → List Char → Nat × List Char
  | n, [] => (n, [])
  | n, c :: cs =>
      let next := 10 * n + digitValue c
      if next < Nat.pow 2 64 then keepDigits next cs else (n, c :: cs)

def Written.json? (w : Written) : Option Float :=
  let (whole, dropped) := keepDigits 0 w.whole
  let (significand, unused) := keepDigits whole w.fraction
  scaled? significand (w.exponent + dropped.length - (w.fraction.length - unused.length : Nat))

end WidgetScript.Number
