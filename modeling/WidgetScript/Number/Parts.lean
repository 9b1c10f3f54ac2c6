/-! A finite binary64 number is a sign, a natural mantissa and a power of two.
Rounding to an integer is computed on these parts, so it is exact and visible to
a proof. -/
namespace WidgetScript.Number

/-- The value is `mantissa * 2 ^ exponent`, negated when `negative` holds. -/
structure Parts where
  negative : Bool
  mantissa : Nat
  exponent : Int
deriving DecidableEq, Repr

/-- Zero and the subnormal numbers share the least exponent, -1074. NaN and the
infinities have no parts of their own and give ones past the largest number. -/
def parts (x : Float) : Parts :=
  let bits := x.toBits.toNat
  let biased := bits / Nat.pow 2 52 % Nat.pow 2 11
  let fraction := bits % Nat.pow 2 52
  { negative := bits / Nat.pow 2 63 == 1
    mantissa := if biased = 0 then fraction else Nat.pow 2 52 + fraction
    exponent := ((max 1 biased : Nat) : Int) - 1075 }

def Parts.quotient (p : Parts) : Nat × Nat :=
  if p.exponent < 0 then (p.mantissa, Nat.pow 2 p.exponent.natAbs)
  else (p.mantissa * Nat.pow 2 p.exponent.natAbs, 1)

def Parts.signed (p : Parts) (magnitude : Nat) : Int :=
  if p.negative then -(magnitude : Int) else magnitude

def isIntegral (x : Float) : Bool :=
  let (num, den) := (parts x).quotient
  x.isFinite && num % den == 0

def truncate (x : Float) : Int :=
  let (num, den) := (parts x).quotient
  (parts x).signed (num / den)

/-- The nearest integer; a half goes away from zero. -/
def round (x : Float) : Int :=
  let (num, den) := (parts x).quotient
  (parts x).signed ((2 * num + den) / (2 * den))

end WidgetScript.Number
