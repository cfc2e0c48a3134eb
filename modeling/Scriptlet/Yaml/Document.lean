import Scriptlet.Yaml.Node
import Scriptlet.Yaml.Token.Stream

/-!
# The first document of a text

Putting the tokens of a text together to nodes. `Document.ofText?` gives the root of
the first document, or nothing if the text has none; what follows the first document
is looked at no further than the tokens ahead require.

The functions on nodes are told by `block` and `indentless` what may begin: block
collections only outside of flow collections, and elements of a sequence without an
indentation of their own only as the value of a key. Every call takes a token or is
followed by one that does, and `fuel` counts that down.
-/

namespace Scriptlet.Yaml

/-- What an anchor stands for. -/
inductive Anchored where
  | complete (node : Node)
  /-- A collection that began at a place and is not complete. -/
  | incomplete (start : Nat) (tag : Tag) (mapping : Bool)

/-- A text of which a document is being put together. -/
structure Assembly where
  stream : Stream
  /-- The anchors, the latest first. -/
  anchors : List (String × Anchored)
  /-- What the handles of tags stand for. -/
  handles : List (String × String)

/-- An action that puts nodes together. -/
abbrev Assemble := StateT Assembly (Except Flaw)

namespace Assemble

/-- The next token. -/
def head : Assemble Token := do
  let s ← get
  let (t, stream) ← Find.head.run s.stream
  set { s with stream := stream }
  return t

/-- Takes the next token. -/
def take : Assemble Unit := do
  let s ← get
  let (_, stream) ← Find.take.run s.stream
  set { s with stream := stream }

/-- Fails at a token, in a part of the structure that begins at `start`. -/
def fail {α : Type} (f : Fault) (start : Mark) (t : Token) : Assemble α :=
  throw (.inStructure f start t.start)

/-! ### Anchors and tags -/

/-- Gives a node an anchor. -/
def register (name? : Option String) (a : Anchored) : Assemble Unit :=
  match name? with
  | none => pure ()
  | some name => modify fun s => { s with anchors := (name, a) :: s.anchors }

/-- Completes the anchors of the collection that began at `start`. -/
def complete (start : Mark) (node : Node) : Assemble Unit :=
  modify fun s =>
    { s with
      anchors := s.anchors.map fun (name, a) =>
        match a with
        | .incomplete begin _ _ => (name, if begin = start.index then .complete node else a)
        | .complete _ => (name, a) }

/-- The node of an alias. -/
def aliasOf (name : String) (mark : Mark) : Assemble Node := do
  match (← get).anchors.lookup name with
  | none => throw (.bare (.unknownAnchor name))
  | some (.complete node) => return .reference (mark.line + 1) name node
  | some (.incomplete _ tag mapping) => return .cycle (mark.line + 1) name tag mapping

/-- The name of a tag by its handle and suffix; nothing for a handle that stands for
nothing. -/
def tagName? (handle suffix : String) : Assemble (Option String) := do
  if handle.isEmpty then return some suffix
  else return ((← get).handles.lookup handle).map (· ++ suffix)

/-- What stands before the content of a node. -/
structure Properties where
  start : Mark
  anchor? : Option String
  /-- The name of the tag. The tag of an exclamation mark alone says nothing. -/
  tag? : Option String

/-- Whether nothing stands before the content. -/
def Properties.isEmpty (p : Properties) : Bool :=
  p.anchor?.isNone && p.tag?.isNone

/-- The kind of a node, which without a tag is `default`. -/
def Properties.tagOr (p : Properties) (default : Tag) : Tag :=
  match p.tag? with
  | none | some "!" => default
  | some name => .ofName name

/-- The name of the anchor at the next token, which is taken. -/
def anchor? : Assemble (Option String) := do
  match (← head).kind with
  | .anchor name =>
      take
      return some name
  | _ => return none

/-- The handle and the suffix of the tag at the next token, which is taken, and its
place. -/
def tagToken? : Assemble (Option (String × String × Mark)) := do
  let t ← head
  match t.kind with
  | .tag handle suffix =>
      take
      return some (handle, suffix, t.start)
  | _ => return none

/-- What stands before the content of a node: an anchor and a tag, in either order. -/
def properties : Assemble Properties := do
  let start := (← head).start
  let before? ← anchor?
  let tag? ← tagToken?
  let after? ← if before?.isNone && tag?.isSome then anchor? else pure none
  let anchor? := before? <|> after?
  let _ ← head
  match tag? with
  | none => return ⟨start, anchor?, none⟩
  | some (handle, suffix, mark) =>
      match ← tagName? handle suffix with
      | some name => return ⟨start, anchor?, some name⟩
      | none => throw (.inStructure .unknownHandle start mark)

/-! ### Nodes -/

/-- The kind of a scalar without a tag. -/
def implicitTag (text : String) (plain : Bool) : Tag :=
  if !plain then .text
  else if text == "<<" then .merge
  else (Scalar.resolve text.toList).tag

/-- A scalar. -/
def scalar (p : Properties) (text : String) (plain : Bool) : Assemble Node := do
  let node := Node.scalar (p.start.line + 1) (p.tagOr (implicitTag text plain)) text
  register p.anchor? (.complete node)
  return node

/-- The scalar of a node that is left out. -/
def absent (mark : Mark) : Node :=
  .scalar (mark.line + 1) .null ""

/-- The node of a sequence, whose elements the given action puts together. -/
def sequence (p : Properties) (items : Assemble (List Node)) : Assemble Node := do
  let tag := p.tagOr .sequence
  register p.anchor? (.incomplete p.start.index tag false)
  let node := Node.seq (p.start.line + 1) tag (← items)
  if p.anchor?.isSome then complete p.start node
  return node

/-- The node of a mapping, whose entries the given action puts together. -/
def mapping (p : Properties) (entries : Assemble (List (Node × Node))) : Assemble Node := do
  let tag := p.tagOr .mapping
  register p.anchor? (.incomplete p.start.index tag true)
  let node := Node.map (p.start.line + 1) tag (← entries)
  if p.anchor?.isSome then complete p.start node
  return node

/-- Whether a token ends a part of a block mapping. -/
def endsInMapping : TokenKind → Bool
  | .key | .value | .blockEnd => true
  | _ => false

/-- Whether a token ends an element of a sequence with an indentation of its own. -/
def endsInSequence : TokenKind → Bool
  | .dash | .blockEnd => true
  | _ => false

/-- Whether a token ends an element of a sequence without an indentation of its own. -/
def endsInIndentless (k : TokenKind) : Bool :=
  k == .dash || endsInMapping k

/-- Whether a token ends the key of an entry of a flow collection that `close` ends. -/
def endsFlowKey (close k : TokenKind) : Bool :=
  k == .value || k == .comma || k == close

/-- Whether a token ends the value of an entry of a flow collection that `close` ends. -/
def endsFlowValue (close k : TokenKind) : Bool :=
  k == .comma || k == close

mutual

/-- A node. -/
def node (block indentless : Bool) : Nat → Assemble Node
  | 0 => throw (.bare .unknown)
  | fuel + 1 => do
      let t ← head
      match t.kind with
      | .reference name =>
          let n ← aliasOf name t.start
          take
          return n
      | _ => content block indentless fuel (← properties)

/-- A node after what stands before its content. -/
def content (block indentless : Bool) : Nat → Properties → Assemble Node
  | 0, _ => throw (.bare .unknown)
  | fuel + 1, p => do
      let t ← head
      match t.kind with
      | .scalar text plain =>
          take
          scalar p text plain
      | .flowSequence =>
          sequence p do
            take
            flowItems fuel t.start true
      | .flowMapping =>
          mapping p do
            take
            flowEntries fuel t.start true
      | kind =>
          if indentless && kind == .dash then sequence p (indentlessItems fuel)
          else if block && kind == .blockSequence then
            sequence p do
              take
              blockItems fuel t.start
          else if block && kind == .blockMapping then
            mapping p do
              take
              blockEntries fuel t.start
          else if p.isEmpty then fail .noContent p.start t
          else scalar p "" true

/-- The node at the next token, or one that is left out if the token ends the part. -/
def nodeUnless (ends : TokenKind → Bool) (block indentless : Bool) (absentAt : Mark) :
    Nat → Assemble Node
  | 0 => throw (.bare .unknown)
  | fuel + 1 => do
      let t ← head
      if ends t.kind then return absent absentAt else node block indentless fuel

/-- The elements of a block sequence that begins at `start`. -/
def blockItems : Nat → Mark → Assemble (List Node)
  | 0, _ => throw (.bare .unknown)
  | fuel + 1, start => do
      let t ← head
      match t.kind with
      | .dash =>
          take
          let item ← nodeUnless endsInSequence true false t.stop fuel
          return item :: (← blockItems fuel start)
      | .blockEnd =>
          take
          return []
      | _ => fail .noDash start t

/-- The elements of a sequence without an indentation of its own. -/
def indentlessItems : Nat → Assemble (List Node)
  | 0 => throw (.bare .unknown)
  | fuel + 1 => do
      let t ← head
      match t.kind with
      | .dash =>
          take
          let item ← nodeUnless endsInIndentless true false t.stop fuel
          return item :: (← indentlessItems fuel)
      | _ => return []

/-- The entries of a block mapping that begins at `start`. -/
def blockEntries : Nat → Mark → Assemble (List (Node × Node))
  | 0, _ => throw (.bare .unknown)
  | fuel + 1, start => do
      let t ← head
      match t.kind with
      | .key =>
          take
          let key ← nodeUnless endsInMapping true true t.stop fuel
          let v ← blockValue fuel
          return (key, v) :: (← blockEntries fuel start)
      | .blockEnd =>
          take
          return []
      | _ => fail .noKey start t

/-- The value of an entry of a block mapping, which may be left out. -/
def blockValue : Nat → Assemble Node
  | 0 => throw (.bare .unknown)
  | fuel + 1 => do
      let t ← head
      match t.kind with
      | .value =>
          take
          nodeUnless endsInMapping true true t.stop fuel
      | _ => return absent t.start

/-- The elements of a flow sequence that begins at `start`. All but the first come after
a comma. -/
def flowItems : Nat → Mark → Bool → Assemble (List Node)
  | 0, _, _ => throw (.bare .unknown)
  | fuel + 1, start, first => do
      let t ← head
      if t.kind == .flowSequenceEnd then
        take
        return []
      if !first then
        if t.kind == .comma then take else fail .noCommaOrBracket start t
      let t ← head
      match t.kind with
      | .flowSequenceEnd =>
          take
          return []
      | .key =>
          take
          let item ← flowPair fuel t.start
          return item :: (← flowItems fuel start false)
      | _ =>
          let item ← node false false fuel
          return item :: (← flowItems fuel start false)

/-- A mapping of one entry in a flow sequence, which begins at `start`. A token that ends
the key is taken with it. -/
def flowPair : Nat → Mark → Assemble Node
  | 0, _ => throw (.bare .unknown)
  | fuel + 1, start => do
      let t ← head
      let key ←
        if endsFlowKey .flowSequenceEnd t.kind then do
          take
          pure (absent t.stop)
        else node false false fuel
      let v ← flowPairValue fuel
      let _ ← head
      return .map (start.line + 1) .mapping [(key, v)]

/-- The value of a mapping of one entry in a flow sequence. -/
def flowPairValue : Nat → Assemble Node
  | 0 => throw (.bare .unknown)
  | fuel + 1 => do
      let t ← head
      match t.kind with
      | .value =>
          take
          nodeUnless (endsFlowValue .flowSequenceEnd) false false t.start fuel
      | _ => return absent t.start

/-- The entries of a flow mapping that begins at `start`. All but the first come after a
comma. -/
def flowEntries : Nat → Mark → Bool → Assemble (List (Node × Node))
  | 0, _, _ => throw (.bare .unknown)
  | fuel + 1, start, first => do
      let t ← head
      if t.kind == .flowMappingEnd then
        take
        return []
      if !first then
        if t.kind == .comma then take else fail .noCommaOrBrace start t
      let t ← head
      match t.kind with
      | .flowMappingEnd =>
          take
          return []
      | .key =>
          take
          let key ← flowKey fuel
          let v ← flowValue fuel
          return (key, v) :: (← flowEntries fuel start false)
      | _ =>
          let key ← node false false fuel
          let v := absent (← head).start
          return (key, v) :: (← flowEntries fuel start false)

/-- The key of an entry of a flow mapping, which may be left out. -/
def flowKey : Nat → Assemble Node
  | 0 => throw (.bare .unknown)
  | fuel + 1 => do
      let t ← head
      nodeUnless (endsFlowKey .flowMappingEnd) false false t.start fuel

/-- The value of an entry of a flow mapping, which may be left out. -/
def flowValue : Nat → Assemble Node
  | 0 => throw (.bare .unknown)
  | fuel + 1 => do
      let t ← head
      match t.kind with
      | .value =>
          take
          let next ← head
          nodeUnless (endsFlowValue .flowMappingEnd) false false next.start fuel
      | _ => return absent t.start

end

/-! ### Documents -/

/-- Whether a token can be part of no node. -/
def endsContent : TokenKind → Bool
  | .version .. | .handle .. | .documentStart | .documentEnd | .streamEnd => true
  | _ => false

/-- Introduces a handle. -/
def addHandle (handle stem : String) (t : Token) : Assemble Unit := do
  if ((← get).handles.lookup handle).isSome then fail .repeatedHandle t.start t
  modify fun s => { s with handles := s.handles ++ [(handle, stem)] }

/-- Takes the directives of a document. There may be one for the version, which has to
be a known one. -/
def directives : Nat → Bool → Assemble Unit
  | 0, _ => throw (.bare .unknown)
  | fuel + 1, versioned => do
      let t ← head
      match t.kind with
      | .version major minor =>
          if versioned then fail .repeatedVersion t.start t
          if major != 1 || minor != 1 then fail .unsupportedVersion t.start t
          take
          directives fuel true
      | .handle handle stem =>
          addHandle handle stem t
          take
          directives fuel versioned
      | _ => pure ()

/-- The handles that need not be introduced. -/
def defaultHandles : List (String × String) :=
  [("!", "!"), ("!!", Tag.family)]

/-- Adds the handles that need not be introduced, unless they were. -/
def addDefaultHandles : Assemble Unit :=
  modify fun s => { s with handles := s.handles ++ defaultHandles }

/-- The root of a document that begins with a line between documents. -/
def explicitRoot (fuel : Nat) : Assemble Node := do
  let t ← head
  if t.kind != .documentStart then fail .noDocumentStart t.start t
  take
  let t ← head
  if endsContent t.kind then return absent t.start else node true false fuel

/-- The root of the first document, if there is one. -/
def root? (fuel : Nat) : Assemble (Option Node) := do
  let _ ← head
  take
  let t ← head
  if t.kind == .streamEnd then return none
  directives fuel false
  addDefaultHandles
  let root ←
    match t.kind with
    | .version .. | .handle .. | .documentStart => explicitRoot fuel
    | _ => node true false fuel
  let _ ← head
  return some root

end Assemble

/-- The root of the first document of a text, if the text has one. -/
def Document.ofText? (text : String) : Except Flaw (Option Node) :=
  let cs := text.toList
  ((Assemble.root? (8 * cs.length + 64)).run ⟨.ofList cs, [], []⟩).map (·.1)

end Scriptlet.Yaml
