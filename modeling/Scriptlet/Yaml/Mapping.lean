import Scriptlet.Yaml.Datum
import Scriptlet.Yaml.Document

/-!
# The variables of a document

A document of variables is a mapping from names to data. `read` gives the variables
of a text, or the `Problem` that keeps it from having any. A `Complaint` is about a
node that is not what it should be; complaints are collected, so that a problem has
all of them, while a fault ends the reading.

The value of the key `<<` is a mapping, or several of them, whose entries are added
to the mapping with that key, unless it has entries with the same keys.
-/

namespace Scriptlet.Yaml

/-- What is wrong with a node. -/
inductive Complaint where
  /-- A node is of a kind that something else cannot hold. -/
  | unfit (line : Nat) (tag : Tag) (text : String) (target : String)
  /-- A key was named on an earlier line. -/
  | repeated (line : Nat) (key : String) (earlier : Nat)

/-- The text of a scalar as complaints show it, which is cut when it is long. -/
def excerpt (text : String) : String :=
  if 10 < text.utf8ByteSize then
    let front : Octets := ⟨(Octets.ofString text).bytes.take 7⟩
    front.toString ++ "..."
  else text

/-- The wording of a complaint. -/
def Complaint.message : Complaint → String
  | unfit line tag text target =>
      let shown :=
        if tag = .sequence ∨ tag = .mapping then text else " `" ++ excerpt text ++ "`"
      s!"line {line}: cannot unmarshal {tag.name}{shown} into {target}"
  | repeated line key earlier =>
      s!"line {line}: mapping key {Text.Quoted.quote key} already defined at line {earlier}"

/-- Why a text has no variables. -/
inductive Problem where
  | flawed (flaw : Flaw)
  | unfit (complaints : List Complaint)

/-- The wording of a problem. -/
def Problem.message : Problem → String
  | flawed flaw => "yaml: " ++ flaw.message
  | unfit complaints =>
      "yaml: unmarshal errors:\n  " ++ "\n  ".intercalate (complaints.map Complaint.message)

/-- What is known while the data of a document is read. -/
structure Progress where
  /-- The complaints so far, the latest first. -/
  complaints : List Complaint
  /-- The number of nodes looked at. -/
  visits : Nat
  /-- The number of nodes looked at by way of an alias. -/
  aliased : Nat

/-- An action that reads data. -/
abbrev Decode := StateT Progress (Except Fault)

namespace Decode

/-- Adds a complaint. -/
def complain (c : Complaint) : Decode Unit :=
  modify fun p => { p with complaints := c :: p.complaints }

/-- Whether too many nodes were looked at by way of an alias: of up to four hundred
thousand visits more than ninety-nine of a hundred, and of more visits fewer, down to ten
of a hundred of four million. -/
def excessive (p : Progress) : Bool :=
  let share : Int :=
    if p.visits ≤ 400000 then 99 * 3600000
    else if 4000000 ≤ p.visits then 10 * 3600000
    else 99 * 3600000 - 89 * (p.visits - 400000)
  100 < p.aliased && 1000 < p.visits && share * p.visits < (p.aliased : Int) * 360000000

/-- Looks at a node inside `depth` aliases. -/
def visit (depth : Nat) : Decode Unit := do
  let p ← get
  let p := { p with visits := p.visits + 1, aliased := p.aliased + (if depth = 0 then 0 else 1) }
  set p
  if excessive p then throw .excessiveAliases

/-- The later keys that are the same as the key `first`. -/
def repeatsOf (first : Node) (later : List (Node × Node)) : List Complaint :=
  later.filterMap fun (key, _) =>
    if first.sameKey key then some (.repeated key.line key.label first.line) else none

/-- The keys of a mapping that are named more than once. -/
def repeats : List (Node × Node) → List Complaint
  | [] => []
  | (key, _) :: entries => repeatsOf key entries ++ repeats entries

/-- Whether keys are named more than once, which is complained about. -/
def refuseRepeats (entries : List (Node × Node)) : Decode Bool := do
  let found := repeats entries
  found.forM complain
  return !found.isEmpty

/-- Whether not all keys are texts. -/
def isGeneral (entries : List (Node × Node)) : Bool :=
  entries.any fun (key, _) => key.tag != .text && key.tag != .merge

end Decode

/-- The entries of a mapping that is being filled. While others are merged into it, the
keys are known that are not to be set any more. -/
structure Fields where
  entries : List (Datum × Datum)
  closed? : Option (List Datum)

namespace Fields

/-- No entries. -/
def empty : Fields := ⟨[], none⟩

/-- Whether a key is not to be set any more. -/
def isClosed (f : Fields) (key : Datum) : Bool :=
  f.closed?.any fun keys => keys.any (·.sameKey key)

/-- The entries with the value of a key set. -/
def setEntry (key v : Datum) : List (Datum × Datum) → List (Datum × Datum)
  | [] => [(key, v)]
  | (k, w) :: entries =>
      if k.sameKey key then (k, v) :: entries else (k, w) :: setEntry key v entries

/-- The fields with a key closed, if keys are closed at all. -/
def close (f : Fields) (key : Datum) : Fields :=
  { f with closed? := f.closed?.map (key :: ·) }

/-- The fields with the value of a key set, if there is one. -/
def set (f : Fields) (key : Datum) (v? : Option Datum) : Fields :=
  match v? with
  | some v => { f with entries := setEntry key v f.entries }
  | none => f

end Fields

/-- The text of a key of a mapping from texts. A key that stands for nothing has none, a
collection is complained about, and octets that write no text are named as they are shown. -/
def Node.keyText (depth : Nat) : Node → Decode (Option String)
  | .scalar _ tag text => do
      Decode.visit depth
      match ← Datum.ofScalar tag text, tag with
      | .null, _ => return none
      | .text decoded, .binary => return some decoded
      | .octets o, _ => return some o.toString
      | _, _ => return some text
  | .seq line tag _ => do
      Decode.visit depth
      Decode.complain (.unfit line tag "" "string")
      return none
  | .map line tag entries => do
      Decode.visit depth
      if ← Decode.refuseRepeats entries then return none
      Decode.complain (.unfit line tag "" "string")
      return none
  | .reference _ _ target => do
      Decode.visit depth
      target.keyText (depth + 1)
  | .cycle _ name _ _ => do
      Decode.visit depth
      throw (.selfContaining name)

mutual

/-- The datum of a node inside `depth` aliases. A mapping with repeated keys has none. -/
def Node.datum (depth : Nat) : Node → Decode (Option Datum)
  | .scalar _ tag text => do
      Decode.visit depth
      return some (← Datum.ofScalar tag text)
  | .seq _ _ items => do
      Decode.visit depth
      return some (.list (← Node.data depth items))
  | .map _ _ entries => do
      Decode.visit depth
      if ← Decode.refuseRepeats entries then return none
      let general := Decode.isGeneral entries
      let own ← Node.fillOwn general depth entries .empty
      let keys := Node.keys depth entries
      let all ← Node.fillMerged general depth keys entries own
      return some (.mapping general all.entries)
  | .reference _ _ target => do
      Decode.visit depth
      target.datum (depth + 1)
  | .cycle _ name _ _ => do
      Decode.visit depth
      throw (.selfContaining name)

/-- The data of nodes. -/
def Node.data (depth : Nat) : List Node → Decode (List Datum)
  | [] => return []
  | n :: ns => do
      let d? ← n.datum depth
      let ds ← Node.data depth ns
      return d?.toList ++ ds

/-- The data of the keys of a mapping. -/
def Node.keys (depth : Nat) : List (Node × Node) → Decode (List Datum)
  | [] => return []
  | (key, _) :: entries => do
      let d? ← key.datum depth
      let ds ← Node.keys depth entries
      return d?.toList ++ ds

/-- The fields with the entries set that a mapping has itself. -/
def Node.fillOwn (general : Bool) (depth : Nat) : List (Node × Node) → Fields → Decode Fields
  | [], f => return f
  | (key, v) :: entries, f => do
      if key.isMerge then Node.fillOwn general depth entries f
      else
        let key? ←
          if general then key.datum depth else (·.map Datum.text) <$> key.keyText depth
        match key? with
        | none => Node.fillOwn general depth entries f
        | some k =>
            if k.isCollection then throw (.collectionKey k.spelling)
            if f.isClosed k then Node.fillOwn general depth entries f
            else
              let v? ← v.datum depth
              Node.fillOwn general depth entries ((f.close k).set k v?)

/-- The fields with the entries set that are merged into a mapping. Its own keys are
closed then, and those that were merged. -/
def Node.fillMerged (general : Bool) (depth : Nat) (keys : Decode (List Datum)) :
    List (Node × Node) → Fields → Decode Fields
  | [], f => return f
  | (key, .seq _ _ items) :: entries, f => do
      if key.isMerge then
        let closed ← match f.closed? with
          | some closed => pure closed
          | none => keys
        let all ← Node.fillAll general depth items { f with closed? := some closed }
        return if f.closed?.isSome then all else { all with closed? := none }
      else Node.fillMerged general depth keys entries f
  | (key, v) :: entries, f => do
      if key.isMerge then
        let closed ← match f.closed? with
          | some closed => pure closed
          | none => keys
        if !v.isMapping then throw .noMergedMapping
        let all ← v.fill general depth { f with closed? := some closed }
        return if f.closed?.isSome then all else { all with closed? := none }
      else Node.fillMerged general depth keys entries f

/-- The fields with the entries of mappings set. -/
def Node.fillAll (general : Bool) (depth : Nat) : List Node → Fields → Decode Fields
  | [], f => return f
  | n :: ns, f => do
      if !n.isMapping then throw .noMergedMapping
      Node.fillAll general depth ns (← n.fill general depth f)

/-- The fields with the entries of a mapping set. -/
def Node.fill (general : Bool) (depth : Nat) : Node → Fields → Decode Fields
  | .map _ _ entries, f => do
      Decode.visit depth
      if ← Decode.refuseRepeats entries then return f
      let own ← Node.fillOwn general depth entries f
      Node.fillMerged general depth (Node.keys depth entries) entries own
  | .reference _ _ target, f => do
      Decode.visit depth
      target.fill general (depth + 1) f
  | .cycle _ name _ _, _ => do
      Decode.visit depth
      throw (.selfContaining name)
  | .scalar .., f | .seq .., f => return f

end

/-- The fields of the root of a document. A root that stands for nothing has none, and one
that is no mapping is complained about. -/
def Node.fields (root : Node) : Decode Fields := do
  Decode.visit 0
  let refuse (line : Nat) (tag : Tag) (text : String) : Decode Fields := do
    Decode.complain (.unfit line tag text Foreign.mapping.typeName)
    return .empty
  match root with
  | .scalar line tag text =>
      Decode.visit 0
      match ← Datum.ofScalar tag text with
      | .null => return .empty
      | _ => refuse line tag text
  | .seq line tag _ =>
      Decode.visit 0
      refuse line tag ""
  | _ => root.fill false 0 .empty

/-- The variables of fields. -/
def Fields.named (f : Fields) : List (String × HostData) :=
  f.entries.filterMap fun
    | (.text name, v) => some (name, v.toHostData)
    | _ => none

/-- The variables of a text, in the order of the text. A text without content has none. -/
def read (text : String) : Except Problem (List (String × HostData)) :=
  match Document.ofText? text with
  | .error flaw => .error (.flawed flaw)
  | .ok none => .ok []
  | .ok (some root) =>
      match root.fields.run ⟨[], 0, 0⟩ with
      | .error fault => .error (.flawed (.bare fault))
      | .ok (f, p) =>
          if p.complaints.isEmpty then .ok f.named else .error (.unfit p.complaints.reverse)

end Scriptlet.Yaml
