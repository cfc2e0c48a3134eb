/-!
# Doubles as dyadic numbers

A finite double is a natural number times a power of two, up to its sign.
`decode` reads that number off the bits, and `nearest` goes the other way: it
rounds any quotient of natural numbers to the closest double, a tie going to the
even neighbour. Everything between the two is exact arithmetic on natural
numbers.
-/

namespace Scriptlet

/-- The number `mantissa * 2 ^ exponent`. -/
structure Dyadic where
  mantissa : Nat
  exponent : Int
  deriving DecidableEq, Repr

namespace Binary64

/-- Two to the power `n`. -/
def twoPow (n : Nat) : Nat := Nat.pow 2 n

/-- The exponent of the smallest positive double, which is two to this power. -/
def minExponent : Int := -1074

/-- The least mantissa of a normal double. -/
def hiddenBit : Nat := twoPow 52

/-- The bits of the infinite double, the first that are no finite double's. -/
def infiniteBits : Nat := 0x7ff * hiddenBit

/-- Whether the sign bit is set, also of a zero. -/
def isNegative (x : Float) : Bool :=
  twoPow 63 ≤ x.toBits.toNat

/-- The magnitude of a finite double. -/
def decode (x : Float) : Dyadic :=
  let fraction : Nat := x.toBits.toNat % hiddenBit
  let field : Nat := x.toBits.toNat / hiddenBit % twoPow 11
  if field = 0 then ⟨fraction, minExponent⟩
  else ⟨hiddenBit + fraction, (field : Int) - 1 + minExponent⟩

/-- The quotient rounded to the closest natural number, a tie to the even one. -/
def roundDiv (num den : Nat) : Nat :=
  let quotient := num / den
  match compare (2 * (num % den)) den with
  | .lt => quotient
  | .gt => quotient + 1
  | .eq => quotient + quotient % 2

/-- The bits of the double closest to `num / den`, of infinity or more when the
quotient is too large for every double. The exponent is chosen so that the
rounded mantissa has fifty-three bits, or as many as the smallest exponent
leaves; a mantissa that rounds up to the next power of two carries into the
exponent by itself. -/
def nearestBits (num den : Nat) : Nat :=
  if num = 0 then 0 else
  let size : Int := (num.log2 : Int) - den.log2
  let first := max (size - 53) minExponent
  let above (e : Int) : Nat := num * twoPow (-e).toNat
  let below (e : Int) : Nat := den * twoPow e.toNat
  let exponent :=
    if 2 * hiddenBit ≤ above first / below first then first + 1 else first
  (exponent - minExponent).toNat * hiddenBit + roundDiv (above exponent) (below exponent)

/-- The double closest to `num / den`; `none` when it would be infinite. -/
def nearest (num den : Nat) : Option Float :=
  let bits := nearestBits num den
  if bits < infiniteBits then some (Float.ofBits bits.toUInt64) else none

/-- The double with the given magnitude; `none` when it would be infinite. -/
def ofDyadic (d : Dyadic) : Option Float :=
  nearest (d.mantissa * twoPow d.exponent.toNat) (twoPow (-d.exponent).toNat)

end Binary64

end Scriptlet
