import Scriptlet.Number.Text
import Scriptlet.Octets

/-!
# Values

The data that programs compute with: strings, integers of sixty-four bits, doubles,
truth values and arrays of values. A value is immutable; what changes is the cell
that holds it. `Value.text` is the form in which a value is shown and in which it
joins other strings.
-/

namespace Scriptlet

/-- A value of the language. -/
inductive Value where
  | string (s : Octets)
  | int (n : Int64)
  | float (x : Float)
  | bool (b : Bool)
  | array (items : List Value)
  deriving Inhabited

namespace Value

/-- The five kinds of values. -/
inductive Kind where
  | string
  | int
  | float
  | bool
  | array
  deriving DecidableEq, Repr

/-- The name of a kind. -/
def Kind.name : Kind → String
  | string => "string"
  | int => "int"
  | float => "float"
  | bool => "bool"
  | array => "array"

/-- The kind of a value. -/
def kind : Value → Kind
  | string _ => .string
  | int _ => .int
  | float _ => .float
  | bool _ => .bool
  | array _ => .array

/-- What a cell holds before anything is assigned to it. -/
def zero : Value := int 0

mutual

/-- The text of a value. -/
def text : Value → Octets
  | string s => s
  | int n => toString n.toInt
  | float x => Binary64.text x
  | bool true => "True"
  | bool false => "False"
  | array items => "\x7b" ++ Octets.intercalate ", " (texts items) ++ "\x7d"

/-- The texts of the elements of an array. -/
def texts : List Value → List Octets
  | [] => []
  | v :: vs => text v :: texts vs

end

/-- Whether a value counts as true: it is neither zero nor empty nor false. -/
def truthy : Value → Bool
  | string s => !s.isEmpty
  | int n => n != 0
  | float x => x != 0
  | bool b => b
  | array items => !items.isEmpty

/-- Whether a value is the truth value true, which alone lets a condition
hold. -/
def holds : Value → Bool
  | bool b => b
  | _ => false

/-- The number that a numeric value stands for, as a double. -/
def number? : Value → Option Float
  | int n => some n.toFloat
  | float x => some x
  | _ => none

/-- The integer nearest to zero from a double. A double without a counterpart in
sixty-four bits gives the least integer. -/
def truncate (x : Float) : Int64 :=
  if -9223372036854775808.0 ≤ x && x < 9223372036854775808.0 then x.toInt64 else Int64.minValue

end Value

end Scriptlet
