import Scriptlet.Value

/-!
# Comparison of values

Equality is defined for every pair of values: arrays are equal element by
element, a text equals what is shown as that text, a truth value equals the
numbers that count like it, and doubles are equal when they differ by less than
the smallest double. The order is defined for two numbers, two texts or two truth
values only, and where it is not, every comparison is false.
-/

namespace Scriptlet.Value

/-- The smallest positive double. -/
def epsilon : Float := Float.ofBits 1

/-- Whether two doubles differ by less than the smallest double. -/
def near (x y : Float) : Bool :=
  (x - y).abs < epsilon

/-- Equality of two values of which none is an array. -/
def scalarEquals : Value → Value → Bool
  | string s, b => s == b.text
  | a, string t => a.text == t
  | bool a, bool b => a == b
  | bool a, b => a == b.truthy
  | a, bool b => a.truthy == b
  | int m, int n => m == n
  | a, b =>
      match a.number?, b.number? with
      | some x, some y => near x y
      | _, _ => false

mutual

/-- Equality of values. -/
def equals : Value → Value → Bool
  | array xs, array ys => allEqual xs ys
  | array _, _ => false
  | _, array _ => false
  | a, b => scalarEquals a b

/-- Equality of the elements of two arrays, which have equally many. -/
def allEqual : List Value → List Value → Bool
  | [], [] => true
  | x :: xs, y :: ys => equals x y && allEqual xs ys
  | _, _ => false

end

/-- The order of two values, if they have one. -/
def order? : Value → Value → Option Ordering
  | int m, int n => some (compare m.toInt n.toInt)
  | string s, string t => some (compare s t)
  | bool a, bool b => some (compare a.toNat b.toNat)
  | a, b =>
      match a.number?, b.number? with
      | some x, some y =>
          if x.isNaN || y.isNaN then none
          else if x < y then some .lt
          else if y < x then some .gt
          else some .eq
      | _, _ => none

/-- Whether `a` comes before `b`. -/
def less (a b : Value) : Bool :=
  (order? a b).any (· == .lt)

/-- Whether `a` comes after `b`. -/
def greater (a b : Value) : Bool :=
  (order? a b).any (· == .gt)

/-- Whether `a` and `b` are ordered and `a` does not come after `b`. -/
def lessEq (a b : Value) : Bool :=
  (order? a b).any (· != .gt)

/-- Whether `a` and `b` are ordered and `a` does not come before `b`. -/
def greaterEq (a b : Value) : Bool :=
  (order? a b).any (· != .lt)

/-- Conjunction. It acts on truth values only, and an operand that is none counts
as false. -/
def and : Value → Value → Value
  | bool a, b => bool (a && b.holds)
  | a, _ => a

/-- Disjunction. It acts on truth values only, and an operand that is none counts
as false. -/
def or : Value → Value → Value
  | bool a, b => bool (a || b.holds)
  | a, _ => a

end Scriptlet.Value
