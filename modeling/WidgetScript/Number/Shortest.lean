import WidgetScript.Number.Parts

/-! The decimal digits of a number are the fewest that read back as it. A decimal
reads back when it lies among the reals that round to the number, whose two ends
belong to them exactly when the mantissa is even. All comparisons are between
natural numbers. -/
namespace WidgetScript.Number

structure Decimal where
  digits : Nat
  exponent : Int
deriving DecidableEq, Repr

def digitCount (n : Nat) : Nat := (Nat.toDigits 10 n).length

/-- Which neighbour a value halfway between two decimals takes. -/
inductive Tie where
  | up
  | even
deriving DecidableEq, Repr

def Tie.takesUpper : Tie → (lower : Nat) → Bool
  | .up, _ => true
  | .even, lower => lower % 2 == 1

/-- The reals that round to a number, scaled so that the ends are natural:
`low ≤ real * scale ≤ high`, with the ends left out when `closed` is false. -/
structure Interval where
  low : Nat
  value : Nat
  high : Nat
  scale : Nat
  closed : Bool

/-- Below a power of two the numbers lie twice as close, so the lower end is half as far. -/
def Parts.interval (p : Parts) : Interval :=
  let narrow := p.mantissa == Nat.pow 2 52 && p.exponent != -1074
  let up := if p.exponent < 0 then 1 else Nat.pow 2 p.exponent.natAbs
  let scale := if p.exponent < 0 then Nat.pow 2 p.exponent.natAbs else 1
  { low := (4 * p.mantissa - (if narrow then 1 else 2)) * up
    value := 4 * p.mantissa * up
    high := (4 * p.mantissa + 2) * up
    scale := 4 * scale
    closed := p.mantissa % 2 == 0 }

def Interval.contains (i : Interval) (num den : Nat) : Bool :=
  let x := num * i.scale
  if i.closed then i.low * den ≤ x && x ≤ i.high * den
  else i.low * den < x && x < i.high * den

/-- The multiple of `unitNum / unitDen` nearest to the value, of its two neighbours
that read back. -/
def Interval.onGrid? (i : Interval) (tie : Tie) (unitNum unitDen : Nat) : Option Nat :=
  let whole := i.scale * unitNum
  let lower := i.value * unitDen / whole
  let twice := 2 * (i.value * unitDen % whole)
  match i.contains (lower * unitNum) unitDen, i.contains ((lower + 1) * unitNum) unitDen with
  | true, true =>
      some (if twice < whole || (twice == whole && !tie.takesUpper lower) then lower else lower + 1)
  | true, false => some lower
  | false, true => some (lower + 1)
  | false, false => none

/-- The exponent of ten just above the value: `10 ^ (e - 1) ≤ value < 10 ^ e`. -/
def Interval.magnitude (i : Interval) : Int :=
  digitCount (i.value * Nat.pow 10 400 / i.scale) - 400

def Decimal.trim : (fuel : Nat) → Decimal → Decimal
  | 0, d => d
  | fuel + 1, d =>
      if d.digits % 10 = 0 && d.digits != 0 then trim fuel ⟨d.digits / 10, d.exponent + 1⟩ else d

def Interval.shortestFrom (i : Interval) (tie : Tie) (magnitude : Int) :
    (remaining count : Nat) → Decimal
  | 0, _ => ⟨0, 0⟩
  | remaining + 1, count =>
      let exponent := magnitude - count
      let unit := Nat.pow 10 exponent.natAbs
      let found := if exponent < 0 then i.onGrid? tie 1 unit else i.onGrid? tie unit 1
      match found with
      | some digits => Decimal.trim count ⟨digits, exponent⟩
      | none => i.shortestFrom tie magnitude remaining (count + 1)

/-- Seventeen digits always suffice. -/
def shortest (tie : Tie) (x : Float) : Decimal :=
  if (parts x).mantissa = 0 then ⟨0, 0⟩
  else
    let i := (parts x).interval
    i.shortestFrom tie i.magnitude 17 1

end WidgetScript.Number
