import Scriptlet.Number.Exponential

/-!
# Powers of doubles

The power of two doubles. The integral part of the exponent is worked off by
repeated squaring, with the size of the base kept apart from its digits so that
nothing overflows on the way; the fractional part, at most a half, goes through
the logarithm. Square roots are taken as such.
-/

namespace Scriptlet.Binary64

/-- Positive infinity. -/
def infinity : Float := 1.0 / 0.0

/-- Whether a double is an odd integer. -/
def isOddInt (x : Float) : Bool :=
  x.abs < 9007199254740992.0 && x.floor == x && x.abs.toUInt64 % 2 == 1

/-- A number `digits * 2 ^ size`. -/
structure Scaled where
  digits : Float
  size : Int

/-- The product of `acc` and the `n`-th power of `base`. Where the size of the base alone
decides, the rest of the exponent is not looked at. -/
def powNat (acc base : Scaled) (n : Nat) : Scaled :=
  if n = 0 then acc
  else if base.size < -4096 || 4096 < base.size then { acc with size := acc.size + base.size }
  else
    let acc := if n % 2 = 1 then
        ⟨acc.digits * base.digits, acc.size + base.size⟩
      else acc
    let square := base.digits * base.digits
    let base : Scaled :=
      if square < 0.5 then ⟨square + square, 2 * base.size - 1⟩ else ⟨square, 2 * base.size⟩
    powNat acc base (n / 2)
termination_by n
decreasing_by omega

/-- The power of a finite base that is not zero to a finite exponent. -/
def powFinite (x y : Float) : Float :=
  let whole := y.abs.floor
  let part := y.abs - whole
  if part != 0 && x < 0 then 0.0 / 0.0
  else if 9223372036854775808.0 ≤ whole then
    if x == -1 then 1 else if (x.abs < 1) == (0 < y) then 0 else infinity
  else
    let up := 0.5 < part
    let first := if part == 0 then 1.0 else exp ((if up then part - 1 else part) * log x)
    let n := whole.toUInt64.toNat + (if up then 1 else 0)
    let (digits, size) := x.frExp
    let result := powNat ⟨first, 0⟩ ⟨digits, size⟩ n
    if y < 0 then (1 / result.digits).scaleB (-result.size)
    else result.digits.scaleB result.size

/-- The power of a zero or an infinity that has the sign of `x`, which the result keeps
when the exponent is odd; `large` says whether it is infinite. -/
def signedLimit (x y : Float) (large : Bool) : Float :=
  let limit := if large then infinity else 0.0
  if isNegative x && isOddInt y then -limit else limit

/-- The power of two doubles. -/
def pow (x y : Float) : Float :=
  if y == 0 || x == 1 then 1
  else if y == 1 then x
  else if x.isNaN || y.isNaN then 0.0 / 0.0
  else if x == 0 then signedLimit x y (y < 0)
  else if y.isInf then
    if x == -1 then 1 else if (x.abs < 1) == (0 < y) then 0 else infinity
  else if x.isInf then signedLimit x y (0 < y)
  else if y == 0.5 then x.sqrt
  else if y == -0.5 then 1 / x.sqrt
  else powFinite x y

end Scriptlet.Binary64
