import Scriptlet.Value.Arithmetic
import Scriptlet.Value.Comparison

/-!
# Operators on values

What an operator makes of the values of its two operands. An assignment makes the
value that is then written to the cell of the left operand.
-/

namespace Scriptlet

/-- The value that an operator makes of its operands. -/
def Operator.apply (o : Operator) (a b : Value) : Except Cause Value :=
  match o with
  | .set => .ok b
  | .add | .addSet => .ok (a.add b)
  | .sub | .subSet => .ok (a.sub b)
  | .mul | .mulSet => .ok (a.mul b)
  | .div | .divSet => a.div b
  | .rem => a.rem b
  | .eq => .ok (.bool (a.equals b))
  | .gt => .ok (.bool (a.greater b))
  | .lt => .ok (.bool (a.less b))
  | .ge => .ok (.bool (a.greaterEq b))
  | .le => .ok (.bool (a.lessEq b))
  | .and => .ok (a.and b)
  | .or => .ok (a.or b)

end Scriptlet
