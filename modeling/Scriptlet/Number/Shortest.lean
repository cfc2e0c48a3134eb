import Scriptlet.Number.Binary64

/-!
# The fewest digits that read back

A double stands for all the real numbers that round to it, an interval around
its own value. Of the decimals in that interval `shortest` takes one with the
fewest digits, of those the closest to the value, and of two equally close ones
the one with an even last digit.

For a given number of digits only two decimals need a look, the neighbours of
the value on the grid of decimals with that many digits. All comparisons are
made between natural numbers, so nothing is rounded on the way.
-/

namespace Scriptlet

/-- The number `coefficient * 10 ^ exponent`. -/
structure Decimal where
  coefficient : Nat
  exponent : Int
  deriving DecidableEq, Repr

namespace Decimal

/-- The interval of the real numbers that round to a double, in quarters of the
double's last place. The lower neighbour of a power of two is closer than the
upper one. The ends belong to the interval when the mantissa is even. -/
structure Interval where
  low : Nat
  centre : Nat
  high : Nat
  closed : Bool
  /-- The power of two that the three bounds count. -/
  exponent : Int

/-- The interval of a positive double. -/
def Interval.ofDyadic (d : Dyadic) : Interval where
  low :=
    if d.mantissa = Binary64.hiddenBit ∧ Binary64.minExponent < d.exponent then
      4 * d.mantissa - 1
    else 4 * d.mantissa - 2
  centre := 4 * d.mantissa
  high := 4 * d.mantissa + 2
  closed := d.mantissa % 2 = 0
  exponent := d.exponent - 2

/-- The value of one grid step `10 ^ p`, and of one unit of the interval, as two
natural numbers in the same proportion. -/
def Interval.units (i : Interval) (p : Int) : Nat × Nat :=
  (Nat.pow 10 p.toNat * Binary64.twoPow (-i.exponent).toNat,
    Binary64.twoPow i.exponent.toNat * Nat.pow 10 (-p).toNat)

/-- Whether `c` steps of the grid `10 ^ p` lie in the interval. -/
def Interval.admits (i : Interval) (p : Int) (c : Nat) : Bool :=
  let (step, unit) := i.units p
  if i.closed then i.low * unit ≤ c * step && c * step ≤ i.high * unit
  else i.low * unit < c * step && c * step < i.high * unit

/-- The grid point of `10 ^ p` to take, if one of the two around the centre lies
in the interval: the closer one, or the even one of two equally close. -/
def Interval.pick (i : Interval) (p : Int) : Option Nat :=
  let (step, unit) := i.units p
  let c := i.centre * unit / step
  match i.admits p c, i.admits p (c + 1) with
  | true, true => some (Binary64.roundDiv (i.centre * unit) step)
  | true, false => some c
  | false, true => some (c + 1)
  | false, false => none

/-- The number of digits before the point, when the value is written without an
exponent; zero or less when zeros follow the point. Scaled by `10 ^ 400` every
positive double has an integral part. -/
def Interval.magnitude (i : Interval) : Int :=
  let (step, unit) := i.units (-400)
  (Nat.toDigits 10 (i.centre * unit / step)).length - 400

/-- The same number without the zeros at the end of its coefficient, of which
at most `n` are removed. -/
def dropZeros : Nat → Decimal → Decimal
  | 0, d => d
  | n + 1, d =>
      if d.coefficient % 10 = 0 then dropZeros n ⟨d.coefficient / 10, d.exponent + 1⟩ else d

/-- The shortest decimal that reads back as the positive double `d`. Seventeen
digits always suffice. -/
def shortest (d : Dyadic) : Decimal :=
  let i := Interval.ofDyadic d
  let magnitude := i.magnitude
  let found := (List.range 17).findSome? fun (n : Nat) =>
    let p := magnitude - (n + 1)
    (i.pick p).map fun c => dropZeros 20 ⟨c, p⟩
  found.getD ⟨0, 0⟩

end Decimal

end Scriptlet
