import WidgetScript.Number.Shortest

/-! Three written forms of a number share the shortest digits. They differ in
where an exponent is written, in how a whole number ends and in which way a tie
between two shortest decimals goes. -/
namespace WidgetScript.Number

def digitsText (n : Nat) : String := String.ofList (Nat.toDigits 10 n)

def zeros (n : Nat) : String := String.ofList (List.replicate n '0')

def signText (x : Float) : String := if (parts x).negative then "-" else ""

def Decimal.positional (d : Decimal) : String :=
  let digits := Nat.toDigits 10 d.digits
  let point := digits.length + d.exponent
  if d.digits = 0 then "0"
  else if 0 ≤ d.exponent then String.ofList digits ++ zeros d.exponent.natAbs
  else if 0 < point then
    String.ofList (digits.take point.natAbs) ++ "." ++ String.ofList (digits.drop point.natAbs)
  else "0." ++ zeros point.natAbs ++ String.ofList digits

def Decimal.scientific (d : Decimal) : String :=
  let digits := Nat.toDigits 10 d.digits
  let exponent := digits.length + d.exponent - 1
  let fraction := if digits.length ≤ 1 then "" else "." ++ String.ofList (digits.drop 1)
  String.ofList (digits.take 1) ++ fraction ++ (if exponent < 0 then "e-" else "e+")
    ++ digitsText exponent.natAbs

/-- The form in tables and messages: positional at every size, with a tie away from zero. -/
def plainText (x : Float) : String :=
  if x.isNaN then "NaN"
  else if x.isInf then signText x ++ "inf"
  else signText x ++ (shortest .up x).positional

/-- The form a script sees: a whole number below 10^15 is written as an integer,
which has no negative zero. -/
def scriptText (x : Float) : String :=
  if isIntegral x && x.abs < 1e15 then toString (truncate x) else plainText x

/-- The form on the wire: first digit at 10^-5 to 10^15 is positional with at least
one place, all else has an exponent, and a tie takes the even digit. A number that
is not finite has no wire form and is sent as null. -/
def wireText (x : Float) : String :=
  if !x.isFinite then "null"
  else
    let d := shortest .even x
    let leading := digitCount d.digits + d.exponent - 1
    if d.digits = 0 then signText x ++ "0.0"
    else if -5 ≤ leading && leading ≤ 15 then
      signText x ++ d.positional ++ (if 0 ≤ d.exponent then ".0" else "")
    else signText x ++ d.scientific

end WidgetScript.Number
