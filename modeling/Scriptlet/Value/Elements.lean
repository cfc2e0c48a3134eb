import Scriptlet.Error
import Scriptlet.Value

/-!
# Elements of arrays

Reading and storing the elements of an array. A value that is no array has no
elements; storing into it makes it an array first, and storing past the end fills
the gap with integer zeros.
-/

namespace Scriptlet.Value

/-- The elements of an array, none for other values. -/
def elements : Value → List Value
  | array items => items
  | _ => []

/-- The number of elements. -/
def size (v : Value) : Nat :=
  v.elements.length

/-- The element at an index, if there is one. -/
def get? (v : Value) (i : Int) : Option Value :=
  if i < 0 then none else v.elements[i.toNat]?

/-- The elements with integer zeros added until there are at least `n`. -/
def grown (n : Nat) (items : List Value) : List Value :=
  items ++ List.replicate (n - items.length) zero

/-- The array with `item` stored at the index `i`. -/
def setAt (v : Value) (i : Int) (item : Value) : Except Cause Value :=
  if i < 0 then .error (.negativeIndex i)
  else .ok (array ((grown (i.toNat + 1) v.elements).set i.toNat item))

/-- The array with one more element at its end. -/
def push (v : Value) (item : Value) : Value :=
  array (v.elements ++ [item])

end Scriptlet.Value
