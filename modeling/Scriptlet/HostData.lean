import Scriptlet.Error
import Scriptlet.Value

/-!
# Data of a host

The data that a host program hands to the language and takes back. `toValue`
turns it into a value: integers of every width are reduced to sixty-four bits,
lists become arrays, and data without a counterpart is an error that names its
type. `ofValue` goes the other way and never fails.
-/

namespace Scriptlet

/-- Types of the host that have no counterpart among the values. -/
inductive Foreign where
  | nothing
  | mapping
  | generalMapping
  | record
  | bytes
  | instant
  /-- Any other type, by its name. -/
  | other (name : String)
  deriving DecidableEq, Repr

/-- The name by which the host knows a type. -/
def Foreign.typeName : Foreign → String
  | nothing => "<nil>"
  | mapping => "map[string]interface \x7b\x7d"
  | generalMapping => "map[interface \x7b\x7d]interface \x7b\x7d"
  | record => "struct \x7b\x7d"
  | bytes => "[]uint8"
  | instant => "time.Time"
  | other name => name

/-- A datum of the host. -/
inductive HostData where
  | value (v : Value)
  | text (s : Octets)
  | bool (b : Bool)
  | int8 (n : Int8)
  | int16 (n : Int16)
  | int32 (n : Int32)
  | int64 (n : Int64)
  | uint8 (n : UInt8)
  | uint16 (n : UInt16)
  | uint32 (n : UInt32)
  | uint64 (n : UInt64)
  | float32 (x : Float32)
  | float64 (x : Float)
  | list (items : List HostData)
  | texts (items : List Octets)
  | ints (items : List Int64)
  | floats (items : List Float)
  | bools (items : List Bool)
  | foreign (type : Foreign)
  deriving Inhabited

namespace HostData

mutual

/-- The value of a datum. -/
def toValue : HostData → Except Cause Value
  | value v => .ok v
  | text s => .ok (.string s)
  | bool b => .ok (.bool b)
  | int8 n => .ok (.int n.toInt64)
  | int16 n => .ok (.int n.toInt64)
  | int32 n => .ok (.int n.toInt64)
  | int64 n => .ok (.int n)
  | uint8 n => .ok (.int n.toUInt64.toInt64)
  | uint16 n => .ok (.int n.toUInt64.toInt64)
  | uint32 n => .ok (.int n.toUInt64.toInt64)
  | uint64 n => .ok (.int n.toInt64)
  | float32 x => .ok (.float x.toFloat)
  | float64 x => .ok (.float x)
  | list items => (toValues items).map .array
  | texts items => .ok (.array (items.map .string))
  | ints items => .ok (.array (items.map .int))
  | floats items => .ok (.array (items.map .float))
  | bools items => .ok (.array (items.map .bool))
  | foreign type => .error (.inconvertible type.typeName)

/-- The values of a list of data, or the error of the first without one. -/
def toValues : List HostData → Except Cause (List Value)
  | [] => .ok []
  | d :: ds =>
      match toValue d with
      | .error e => .error e
      | .ok v => (toValues ds).map (v :: ·)

end

mutual

/-- The datum of a value. -/
def ofValue : Value → HostData
  | .string s => text s
  | .int n => int64 n
  | .float x => float64 x
  | .bool b => bool b
  | .array items => list (ofValues items)

/-- The data of the elements of an array. -/
def ofValues : List Value → List HostData
  | [] => []
  | v :: vs => ofValue v :: ofValues vs

end

end HostData

end Scriptlet
