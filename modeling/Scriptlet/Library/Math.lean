import Scriptlet.Library.Conversion
import Scriptlet.Number.Power

/-!
# Mathematics

Rounding, powers and the usual functions of doubles, and two constants.
-/

namespace Scriptlet.Library

/-- The argument at a position as a double. -/
def number (f : Frame) (i : Nat) : Except Failure Float := do
  let v ← f.arg i
  match v.number? with
  | some x => return x
  | none => unsupported f v

/-- A function that turns a double into an integer and keeps integers. -/
def rounding (round : Float → Float) : Native := fun f => do
  f.require 1
  match ← f.arg 0 with
  | .int n => return f.setResult (.int n)
  | .float x => return f.setResult (.int (Value.truncate (round x)))
  | v => unsupported f v

/-- The square root of a number that is not negative. -/
def sqrt : Native := fun f => do
  f.require 1
  let x ← number f 0
  if x < 0 then f.fail s!"negative argument {Binary64.text x}"
  else return f.setResult (.float x.sqrt)

/-- The absolute value. The least integer has none and stays. -/
def abs : Native := fun f => do
  f.require 1
  match ← f.arg 0 with
  | .int n => return f.setResult (.int (if n < 0 then -n else n))
  | .float x => return f.setResult (.float x.abs)
  | v => unsupported f v

/-- The result after `n` more rounds, each of which multiplies it by the base. -/
def powLoop (base result : Int64) : Nat → Int64
  | 0 => result
  | n + 1 => powLoop base (result * base) n

/-- The power of an integer, wrapped to sixty-four bits. -/
def intPow (base : Int64) (n : Nat) : Int64 :=
  powLoop base 1 n

/-- The power of two numbers: an integer if both are integers and the exponent is not
negative. -/
def pow : Native := fun f => do
  f.require 2
  match ← f.arg 0, ← f.arg 1 with
  | .int base, .int exponent =>
      if 0 ≤ exponent then return f.setResult (.int (intPow base exponent.toInt.toNat))
      else return f.setResult (.float (Binary64.pow base.toFloat exponent.toFloat))
  | _, _ => do
      let base ← number f 0
      let exponent ← number f 1
      return f.setResult (.float (Binary64.pow base exponent))

/-- The sine of an angle in radians. -/
def sin : Native := fun f => do
  f.require 1
  let x ← number f 0
  return f.setResult (.float x.sin)

/-- The ratio of a circle's circumference to its diameter. -/
def pi : Float := 3.141592653589793

/-- The base of the natural logarithm. -/
def e : Float := 2.718281828459045

/-- The functions of this module. -/
def math : List Session.Provided :=
  [⟨"ceil", ["x"], rounding Float.ceil⟩,
    ⟨"floor", ["x"], rounding Float.floor⟩,
    ⟨"sqrt", ["x"], sqrt⟩,
    ⟨"abs", ["x"], abs⟩,
    ⟨"pow", ["base", "exp"], pow⟩,
    ⟨"sin", ["x"], sin⟩]

/-- The constants of this module. -/
def constants : List (String × Value) :=
  [("PI", .float pi), ("E", .float e)]

end Scriptlet.Library
