import Scriptlet.Error
import Scriptlet.Number.Remainder
import Scriptlet.Value

/-!
# Arithmetic of values

Two integers give an integer, wrapped to sixty-four bits, and as soon as a double
takes part the result is a double. Addition also joins text. An operand to which
an operation does not apply leaves the left operand as it is. The one failure is
an integer divided by zero.
-/

namespace Scriptlet.Value

/-- A numeric operation by its action on integers and on doubles. Where the two
operands are not both numbers the left one is kept. -/
def arith (ints : Int64 → Int64 → Int64) (floats : Float → Float → Float) (a b : Value) :
    Value :=
  match a, b with
  | int m, int n => int (ints m n)
  | _, _ =>
      match a.number?, b.number? with
      | some x, some y => float (floats x y)
      | _, _ => a

/-- Addition. Text takes the text of any operand at its end, and a number or truth
value in front of a text is joined to it as text. -/
def add : Value → Value → Value
  | string s, b => string (s ++ b.text)
  | array items, string _ => array items
  | a, string t => string (a.text ++ t)
  | a, b => arith (· + ·) (· + ·) a b

/-- Subtraction. -/
def sub (a b : Value) : Value :=
  arith (· - ·) (· - ·) a b

/-- Multiplication. -/
def mul (a b : Value) : Value :=
  arith (· * ·) (· * ·) a b

/-- Whether both operands are integers and the right one is zero. -/
def zeroDivides : Value → Value → Bool
  | int _, int n => n == 0
  | _, _ => false

/-- Division. The quotient of integers is rounded toward zero. -/
def div (a b : Value) : Except Cause Value :=
  if zeroDivides a b then .error .zeroDivisor else .ok (arith (· / ·) (· / ·) a b)

/-- The remainder of the division, with the sign of the dividend. -/
def rem (a b : Value) : Except Cause Value :=
  if zeroDivides a b then .error .zeroModulus else .ok (arith (· % ·) Binary64.rem a b)

end Scriptlet.Value
