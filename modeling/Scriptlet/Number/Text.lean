import Scriptlet.Number.Shortest

/-!
# The text of a double

A double is written with the fewest digits that read back. A `Layout` says for
which exponents the digits are written positionally, and how wide an exponent is
at least.
-/

namespace Scriptlet

/-- How the digits of a decimal are laid out: positionally when the exponent of
the first digit is at least `least` and below `bound`, and otherwise with an
exponent of at least `width` digits. -/
structure Layout where
  least : Int
  bound : Int
  width : Nat

namespace Layout

/-- Values are written positionally from a ten-thousandth up to a million, and
exponents have a sign and at least two digits. -/
def value : Layout := ⟨-4, 6, 2⟩

/-- The digits `ds` with a point after the first `n` of them, zeros standing in
where there are too few. -/
def positional (ds : List Char) (n : Int) : List Char :=
  if n ≤ 0 then '0' :: '.' :: (List.replicate (-n).toNat '0' ++ ds)
  else
    let whole := n.toNat
    if ds.length ≤ whole then ds ++ List.replicate (whole - ds.length) '0'
    else ds.take whole ++ '.' :: ds.drop whole

/-- The digits `ds` with a point after the first and the exponent `e`. -/
def scientific (layout : Layout) (ds : List Char) (e : Int) : List Char :=
  let digits := Nat.toDigits 10 e.natAbs
  let padded := List.replicate (layout.width - digits.length) '0' ++ digits
  let fraction := if ds.length ≤ 1 then [] else '.' :: ds.drop 1
  ds.take 1 ++ fraction ++ 'e' :: (if e < 0 then '-' else '+') :: padded

/-- The text of a positive decimal. -/
def decimal (layout : Layout) (d : Decimal) : List Char :=
  let ds := Nat.toDigits 10 d.coefficient
  let e := d.exponent + ds.length - 1
  if layout.least ≤ e ∧ e < layout.bound then positional ds (e + 1)
  else layout.scientific ds e

end Layout

namespace Binary64

/-- The text of a double, by which it also reads back. A negative zero keeps its
sign. -/
def text (x : Float) : String :=
  if x.isNaN then "NaN"
  else if x.isInf then (if isNegative x then "-Inf" else "+Inf")
  else
    let d := decode x
    let digits := if d.mantissa = 0 then ['0'] else Layout.value.decimal (Decimal.shortest d)
    String.ofList (if isNegative x then '-' :: digits else digits)

end Binary64

end Scriptlet
