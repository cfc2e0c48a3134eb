import Scriptlet.Number.Binary64

/-!
# Exponential and logarithm

The two functions by which fractional powers are computed, as fixed sequences of
rounded operations, so that they give the same last digit everywhere. Both bring
their argument close to a point where a short series suffices. Some steps of the
exponential multiply and add with a single rounding, which `mulAdd` does exactly.
-/

namespace Scriptlet.Binary64

/-- The exact value of a finite double, as an integer times a power of two. -/
def signedDyadic (x : Float) : Int × Int :=
  let d := decode x
  (if isNegative x then -(d.mantissa : Int) else d.mantissa, d.exponent)

/-- The double closest to `m * 2 ^ e`. -/
def ofSigned (m e : Int) : Float :=
  let magnitude := (ofDyadic ⟨m.natAbs, e⟩).getD (1.0 / 0.0)
  if m < 0 then -magnitude else magnitude

/-- `a * b + c` for finite doubles, rounded once. -/
def mulAdd (a b c : Float) : Float :=
  let (ma, ea) := signedDyadic a
  let (mb, eb) := signedDyadic b
  let (mc, ec) := signedDyadic c
  let e := min (ea + eb) ec
  ofSigned (ma * mb * twoPow (ea + eb - e).toNat + mc * twoPow (ec - e).toNat) e

/-- The integer closest to a double, a tie going to the even one. -/
def nearestInt (x : Float) : Int :=
  let d := decode x
  let n : Int := roundDiv (d.mantissa * twoPow d.exponent.toNat) (twoPow (-d.exponent).toNat)
  if isNegative x then -n else n

/-- The natural logarithm of a positive double. The argument is brought between the
square roots of a half and of two. -/
def log (x : Float) : Float :=
  let (f, e) := x.frExp
  let small := f < 0.7071067811865476
  let f := if small then 2 * f - 1 else f - 1
  let k := Float.ofInt (if small then e - 1 else e)
  let s := f / (2 + f)
  let s2 := s * s
  let s4 := s2 * s2
  let t1 := s2 * (6.666666666666735130e-01 + s4 * (2.857142874366239149e-01 +
    s4 * (1.818357216161805012e-01 + s4 * 1.479819860511658591e-01)))
  let t2 := s4 * (3.999999999940941908e-01 + s4 * (2.222219843214978396e-01 +
    s4 * 1.531383769920937332e-01))
  let r := t1 + t2
  let h := 0.5 * f * f
  k * 6.93147180369123816490e-01 - ((h - (s * (h + r) + k * 1.90821492927058770002e-10)) - f)

/-- The coefficients of the series of the exponential less one, the highest first. -/
def expSeries : List Float :=
  [2.4801587301587301587e-5, 1.9841269841269841270e-4, 1.3888888888888888889e-3,
    8.3333333333333333333e-3, 4.1666666666666666667e-2, 1.6666666666666666667e-1, 0.5, 1.0]

/-- The exponential of a double that is not large. The multiple of the logarithm of two
that is taken off becomes the exponent, and the series gives the exponential less one
of a sixteenth of the rest, which is then squared four times. -/
def exp (x : Float) : Float :=
  let n := nearestInt (1.4426950408889634 * x)
  let k := Float.ofInt n
  let r := mulAdd (-0.69314718055966295651160180568695068359375) k x
  let r := mulAdd (-0.28235290563031577122588448175013436025525412068e-12) k r
  let r := r * 0.0625
  let p := expSeries.foldl (fun p c => mulAdd p r c) 0
  let d := r * p
  let d := d * (d + 2)
  let d := d * (d + 2)
  let d := d * (d + 2)
  (mulAdd d (d + 2) 1).scaleB n

end Scriptlet.Binary64
