/-!
# Tags

What the kind of a node is called. The kinds of the format have short names with
two exclamation marks; all others are called as the text calls them.
-/

namespace Scriptlet.Yaml

/-- The kind of a node. -/
inductive Tag where
  | null
  | bool
  | int
  | float
  | instant
  | text
  | binary
  | merge
  | sequence
  | mapping
  | other (name : String)
  deriving DecidableEq, Repr

namespace Tag

/-- The short name of a kind. -/
def name : Tag → String
  | null => "!!null"
  | bool => "!!bool"
  | int => "!!int"
  | float => "!!float"
  | instant => "!!timestamp"
  | text => "!!str"
  | binary => "!!binary"
  | merge => "!!merge"
  | sequence => "!!seq"
  | mapping => "!!map"
  | other name => name

/-- The kind with a short name. -/
def ofShort : String → Tag
  | "!!null" => null
  | "!!bool" => bool
  | "!!int" => int
  | "!!float" => float
  | "!!timestamp" => instant
  | "!!str" => text
  | "!!binary" => binary
  | "!!merge" => merge
  | "!!seq" => sequence
  | "!!map" => mapping
  | name => other name

/-- What the names of the kinds of the format begin with when they are written out. -/
def family : String := "tag:yaml.org,2002:"

/-- The kind with a name, written out or short. -/
def ofName (name : String) : Tag :=
  if name.startsWith family then ofShort ("!!" ++ (name.drop family.length).toString)
  else ofShort name

end Tag

end Scriptlet.Yaml
