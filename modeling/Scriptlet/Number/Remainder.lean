import Scriptlet.Number.Binary64

/-!
# The remainder of doubles

The remainder of a division that rounds toward zero, computed exactly: two
doubles are multiples of a common power of two, and there the remainder is that
of natural numbers. It has the sign of the dividend, also when it is zero.
-/

namespace Scriptlet.Binary64

/-- What remains of the magnitude `x` when `y` is taken away as often as it
fits. -/
def remDyadic (x y : Dyadic) : Dyadic :=
  let e := min x.exponent y.exponent
  ⟨x.mantissa * twoPow (x.exponent - e).toNat % (y.mantissa * twoPow (y.exponent - e).toNat), e⟩

/-- The remainder of `x` by `y`. It is no number when `x` is infinite or `y` is
zero, and `x` itself when `y` is infinite. -/
def rem (x y : Float) : Float :=
  if x.isNaN || y.isNaN || x.isInf || y == 0 then 0.0 / 0.0
  else if y.isInf then x
  else
    let r := (ofDyadic (remDyadic (decode x) (decode y))).getD 0.0
    if isNegative x then -r else r

end Scriptlet.Binary64
