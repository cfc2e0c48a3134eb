import Scriptlet.HostData
import Scriptlet.Number.Text
import Scriptlet.Text.Base64
import Scriptlet.Text.Quoted
import Scriptlet.Yaml.Scalar

/-!
# The data of a document

What the nodes of a document stand for. A mapping whose keys are all texts is kept
apart from the general ones. `toHostData` hands a datum to the language, for which
the content of a mapping is of no use.
-/

namespace Scriptlet.Yaml

/-- What a node stands for. -/
inductive Datum where
  | null
  | bool (b : Bool)
  | int (n : Int)
  | float (x : Float)
  | instant (t : Timestamp)
  | text (s : String)
  /-- A string that writes no text. -/
  | octets (o : Octets)
  | list (items : List Datum)
  | mapping (general : Bool) (entries : List (Datum × Datum))

namespace Datum

/-- Whether two keys are the same. Collections are no keys. -/
def sameKey : Datum → Datum → Bool
  | null, null => true
  | bool a, bool b => a == b
  | int a, int b => a == b
  | float a, float b => a == b
  | instant a, instant b => a == b
  | text a, text b => a == b
  | octets a, octets b => a == b
  | _, _ => false

/-- The place of a kind of keys among all of them. -/
def keyRank : Datum → Nat
  | null => 0
  | bool _ => 1
  | int _ => 2
  | float _ => 3
  | text _ | octets _ => 4
  | instant _ => 5
  | list _ | mapping .. => 6

/-- The octets of a text or string. -/
def string? : Datum → Option Octets
  | text s => some s
  | octets o => some o
  | _ => none

/-- Whether a key is shown before another one: keys of one kind in their order. -/
def precedes (a b : Datum) : Bool :=
  match a, b with
  | bool a, bool b => !a || b
  | int a, int b => a ≤ b
  | float a, float b => a.isNaN || a ≤ b
  | a, b =>
      match a.string?, b.string? with
      | some s, some t => (compare s t).isLE
      | _, _ => a.keyRank ≤ b.keyRank

/-- Whether a datum is a list or a mapping. -/
def isCollection : Datum → Bool
  | list _ | mapping .. => true
  | _ => false

/-- The type of a mapping. -/
def mappingType (general : Bool) : Foreign :=
  if general then .generalMapping else .mapping

/-- The datum of a string. -/
def ofOctets (o : Octets) : Datum :=
  if o.isText then text o.toString else octets o

/-- The datum of a scalar of the given kind. -/
def ofScalar (tag : Tag) (s : String) : Except Fault Datum :=
  match tag with
  | .binary =>
      match Text.Base64.octets? s with
      | some o => .ok (ofOctets o)
      | none => .error .badBinary
  | _ =>
      (Scalar.resolveAs tag s).map fun
        | .null => null
        | .bool b => bool b
        | .int n => int n
        | .float x => float x
        | .instant t => instant t
        | .text => text s

mutual

/-- A datum in the notation of the host. -/
def spelling : Datum → String
  | null => "interface \x7b\x7d(nil)"
  | bool b => if b then "true" else "false"
  | int n =>
      if n ≤ Int64.maxValue.toInt then toString n else "0x" ++ Text.Quoted.hex 1 n.toNat
  | float x => Binary64.text x
  | instant t => t.spelling
  | text s => Text.Quoted.quote s
  | octets o => Text.Quoted.quote o
  | list items => "[]interface \x7b\x7d\x7b" ++ ", ".intercalate (spellings items) ++ "\x7d"
  | mapping general entries =>
      let inOrder := (entrySpellings entries).mergeSort fun a b => a.1.precedes b.1
      (mappingType general).typeName ++ "\x7b" ++ ", ".intercalate (inOrder.map (·.2)) ++ "\x7d"

/-- Data in the notation of the host. -/
def spellings : List Datum → List String
  | [] => []
  | d :: ds => d.spelling :: spellings ds

/-- Keys, each with its entry in the notation of the host. -/
def entrySpellings : List (Datum × Datum) → List (Datum × String)
  | [] => []
  | (k, v) :: entries => (k, k.spelling ++ ":" ++ v.spelling) :: entrySpellings entries

end

mutual

/-- The datum that a host hands to the language. -/
def toHostData : Datum → HostData
  | null => .foreign .nothing
  | bool b => .bool b
  | int n =>
      if n ≤ Int64.maxValue.toInt then .int64 (Int64.ofInt n) else .uint64 (UInt64.ofInt n)
  | float x => .float64 x
  | instant _ => .foreign .instant
  | text s => .text s
  | octets o => .text o
  | list items => .list (toHostDataAll items)
  | mapping general _ => .foreign (mappingType general)

/-- The data that a host hands to the language. -/
def toHostDataAll : List Datum → List HostData
  | [] => []
  | d :: ds => d.toHostData :: toHostDataAll ds

end

end Datum

end Scriptlet.Yaml
