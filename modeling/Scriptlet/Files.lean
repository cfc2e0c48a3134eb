/-!
# Files

The files that a run may read. `Files` tells what reading a name gives, and
`Files.ofList` is the tree of the files in the working directory: a name is walked
component by component, and every component but the last must be a directory.
-/

namespace Scriptlet

/-- What reading a file by its name gives. -/
inductive Reading where
  | content (text : String)
  /-- The name is that of a directory, which can be opened but not read. -/
  | directory
  | missing
  /-- A component before the last is a file. -/
  | notDirectory
  | nameTooLong
  | invalidName
  deriving DecidableEq, Repr

namespace Reading

/-- Why a file with the given name cannot be read. -/
def failure? (name : String) : Reading → Option String
  | content _ => none
  | directory => some s!"read {name}: is a directory"
  | missing => some s!"open {name}: no such file or directory"
  | notDirectory => some s!"open {name}: not a directory"
  | nameTooLong => some s!"open {name}: file name too long"
  | invalidName => some s!"open {name}: invalid argument"

end Reading

/-- What reading a name gives, for every name. -/
abbrev Files := String → Reading

namespace Files

/-- A place that a name may lead to: below the working directory, by the components
with the last one in front, or outside of it, where there are only directories. -/
inductive Place where
  | inside (path : List String)
  | outside
  deriving DecidableEq, Repr

/-- The components of a name. -/
def components (name : String) : List String :=
  name.splitOn "/"

/-- The components of the name of a file, the last one in front. -/
def pathOf (name : String) : List String :=
  ((components name).filter fun c => c != "" && c != ".").reverse

/-- The content of the file at a path. -/
def contentAt? (tree : List (List String × String)) (path : List String) : Option String :=
  tree.lookup path

/-- Whether a path is that of a directory: the working directory, or one that holds a
file. -/
def isDirectory (tree : List (List String × String)) (path : List String) : Bool :=
  path.isEmpty || tree.any fun (file, _) => path.isSuffixOf file && path != file

/-- The place that a component leads to. -/
def step (tree : List (List String × String)) : Place → String → Except Reading Place
  | .inside path, c =>
      if (contentAt? tree path).isSome then .error .notDirectory
      else if c == "" || c == "." then .ok (.inside path)
      else if c == ".." then .ok (if path.isEmpty then .outside else .inside (path.drop 1))
      else if 255 < c.utf8ByteSize then .error .nameTooLong
      else if (contentAt? tree (c :: path)).isSome || isDirectory tree (c :: path) then
        .ok (.inside (c :: path))
      else .error .missing
  | .outside, c =>
      if c == "" || c == "." || c == ".." then .ok .outside
      else if 255 < c.utf8ByteSize then .error .nameTooLong
      else .error .missing

/-- What is found at a place. -/
def found (tree : List (List String × String)) : Place → Reading
  | .inside path =>
      match contentAt? tree path with
      | some text => .content text
      | none => .directory
  | .outside => .directory

/-- The files of a working directory, by their names. The null device is empty. -/
def ofList (entries : List (String × String)) : Files := fun name =>
  let tree := entries.map fun (file, text) => (pathOf file, text)
  let start := if name.startsWith "/" then Place.outside else .inside []
  if name.contains (Char.ofNat 0) then .invalidName
  else if name.isEmpty then .missing
  else if 4096 ≤ name.utf8ByteSize then .nameTooLong
  else if name == "/dev/null" then .content ""
  else
    match (components name).foldlM (step tree) start with
    | .ok place => found tree place
    | .error failure => failure

end Files

end Scriptlet
