import Scriptlet.Yaml.Scalar

/-!
# The structure of a document

What a document is made of, before anything is said about what it means: scalars,
sequences, mappings, and aliases of nodes that have an anchor. A node knows the line
it begins on, counting from one, and its kind, which a tag tells or else the text.
-/

namespace Scriptlet.Yaml

/-- A node of a document. -/
inductive Node where
  | scalar (line : Nat) (tag : Tag) (text : String)
  | seq (line : Nat) (tag : Tag) (items : List Node)
  | map (line : Nat) (tag : Tag) (entries : List (Node × Node))
  /-- An alias, with the node it stands for. -/
  | reference (line : Nat) (name : String) (target : Node)
  /-- An alias of a node that it is a part of; `tag` and `mapping` tell what that is. -/
  | cycle (line : Nat) (name : String) (tag : Tag) (mapping : Bool)

namespace Node

/-- The line that a node begins on. -/
def line : Node → Nat
  | scalar l .. | seq l .. | map l .. | reference l .. | cycle l .. => l

/-- The kind of a node. An alias is of the kind of the node it stands for. -/
def tag : Node → Tag
  | scalar _ t _ | seq _ t _ | map _ t _ | cycle _ _ t _ => t
  | reference _ _ target => target.tag

/-- The text by which two keys are told apart: that of a scalar, or the name of an
alias. -/
def label : Node → String
  | scalar _ _ text => text
  | reference _ name _ | cycle _ name _ _ => name
  | seq .. | map .. => ""

/-- Whether two nodes have the same form. -/
def sameForm : Node → Node → Bool
  | scalar .., scalar .. | seq .., seq .. | map .., map .. => true
  | reference .., reference .. | reference .., cycle .. => true
  | cycle .., reference .. | cycle .., cycle .. => true
  | _, _ => false

/-- Whether two keys are the same. -/
def sameKey (a b : Node) : Bool :=
  a.sameForm b && a.label == b.label

/-- Whether a node is a mapping, or an alias of one. -/
def isMapping : Node → Bool
  | map .. => true
  | reference _ _ target => target.isMapping
  | cycle _ _ _ mapping => mapping
  | _ => false

/-- Whether a key says that its value is to be merged into the mapping. -/
def isMerge : Node → Bool
  | scalar _ .merge "<<" => true
  | _ => false

end Node

end Scriptlet.Yaml
