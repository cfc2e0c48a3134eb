import Std.Data.TreeMap
import Scriptlet.Yaml.Token.Name
import Scriptlet.Yaml.Token.Scalar

/-!
# The tokens of a text

A text as a stream of tokens. The tokens are found one after the other, and only as
far as they are asked for. Whether something is the key of a mapping is known only
at the colon after it, so a place where a key may have begun is remembered, and the
token of the key is put before the tokens found since. `Stream.head` gives the next
token once that can no longer happen to it.
-/

namespace Scriptlet.Yaml

/-- A place where a key may have begun. -/
structure KeyStart where
  /-- Whether it may be one still. -/
  possible : Bool
  /-- Whether there must be one. -/
  required : Bool
  /-- The number of the token that begins there. -/
  number : Nat
  mark : Mark

/-- The tokens of a text, as far as they were found. -/
structure Stream where
  cursor : Cursor
  /-- The tokens found and not taken. -/
  queue : List Token
  /-- The number of tokens taken. -/
  taken : Nat
  /-- Whether the first token of the queue can be taken. -/
  ready : Bool
  /-- Whether a token was found. -/
  started : Bool
  /-- The indentation of the innermost block collection, and below zero if there is none. -/
  indent : Int
  /-- The indentations of the block collections around it. -/
  outer : List Int
  /-- Whether a key may begin here. -/
  keyAllowed : Bool
  /-- Where a key may have begun: in the innermost flow collection, in those around it,
  and in the block at last. -/
  keys : List KeyStart
  /-- The number of flow collections around the cursor. -/
  flowLevel : Nat
  /-- The flow level of the key that begins with a token. -/
  levelOf : Std.TreeMap Nat Nat

/-- An action that finds tokens. -/
abbrev Find := StateT Stream (Except Flaw)

/-- The largest number of flow collections, and of block collections, inside each
other. -/
def maxDepth : Nat := 10000

/-- The number of characters after which no colon makes a key of something. -/
def maxKeyLength : Nat := 1024

namespace Stream

/-- The tokens of a text before any is found. -/
def ofList (cs : List Char) : Stream where
  cursor := .ofList cs
  queue := []
  taken := 0
  ready := false
  started := false
  indent := -1
  outer := []
  keyAllowed := true
  keys := [⟨false, false, 0, .start⟩]
  flowLevel := 0
  levelOf := ∅

/-- Whether a flow collection is around the cursor. -/
def inFlow (s : Stream) : Bool :=
  s.flowLevel != 0

/-- The number that the next token gets. -/
def nextNumber (s : Stream) : Nat :=
  s.taken + s.queue.length

/-- The stream with one more token. -/
def add (s : Stream) (t : Token) : Stream :=
  { s with queue := s.queue ++ [t] }

/-- The stream with a token put before the one of the given number. If that was taken
already, the token comes last. -/
def insertAt (s : Stream) (number : Nat) (t : Token) : Stream :=
  if number < s.taken then s.add t
  else { s with queue := s.queue.insertIdx (number - s.taken) t }

end Stream

namespace Find

/-- Moves the cursor. -/
def scan {α : Type} (action : Scan α) : Find α := do
  let s ← get
  let (a, cursor) ← action.run s.cursor
  set { s with cursor := cursor }
  return a

/-- The place of the cursor. -/
def here : Find Mark :=
  return (← get).cursor.mark

/-- Fails at the cursor, in something that begins at `start`. -/
def fail {α : Type} (f : Fault) (start : Mark) : Find α := do
  throw (.inToken f start (← here))

/-- Adds a token that begins at `start` and ends at the cursor. -/
def emit (kind : TokenKind) (start : Mark) : Find Unit := do
  let stop ← here
  modify (·.add ⟨kind, start, stop⟩)

/-- Adds a token of `width` characters. -/
def emitSign (kind : TokenKind) (width : Nat) : Find Unit := do
  let start ← here
  scan (width.repeat (fun moved => do moved; Scan.skip) (pure ()))
  emit kind start

/-! ### Where keys may begin -/

/-- Forgets where a key may have begun. It is a fault if there must be one. -/
def dropKey : Find Unit := do
  match (← get).keys with
  | [] => pure ()
  | k :: keys =>
      if k.possible then
        if k.required then fail .missingColon k.mark
        modify fun s =>
          { s with
            keys := { k with possible := false } :: keys
            levelOf := s.levelOf.erase k.number }

/-- Remembers that a key may begin here. In a block there must be one at the indentation
of a mapping. -/
def saveKey : Find Unit := do
  let s ← get
  if s.keyAllowed then
    let required := !s.inFlow && s.indent == s.cursor.mark.column
    dropKey
    modify fun t =>
      { t with
        keys := ⟨true, required, s.nextNumber, s.cursor.mark⟩ :: t.keys.drop 1
        levelOf := t.levelOf.insert s.nextNumber s.flowLevel }

/-- Whether a key that may have begun at a level can be one still: it is on the same line
and not too long. -/
def checkKey (level : Nat) : Find Bool := do
  let s ← get
  let depth := s.flowLevel - level
  match s.keys[depth]? with
  | none => return false
  | some k =>
      let mark := s.cursor.mark
      if !k.possible then return false
      else if k.mark.line < mark.line || k.mark.index + maxKeyLength < mark.index then
        if k.required then fail .missingColon k.mark
        set { s with keys := s.keys.set depth { k with possible := false } }
        return false
      else return true

/-- Enters a flow collection. -/
def enterFlow : Find Unit := do
  let s ← get
  set { s with
    keys := ⟨false, false, s.nextNumber, s.cursor.mark⟩ :: s.keys
    flowLevel := s.flowLevel + 1 }
  if maxDepth < s.flowLevel + 1 then fail (.tooDeep maxDepth) s.cursor.mark

/-- Leaves a flow collection. -/
def leaveFlow : Find Unit :=
  modify fun s =>
    match s.keys with
    | k :: below :: keys =>
        { s with
          keys := below :: keys
          flowLevel := s.flowLevel - 1
          levelOf := s.levelOf.erase k.number }
    | _ => s

/-! ### Indentation -/

/-- Enters a block collection if the column is beyond the indentation. Its token is put
before the one of the given number, or comes last. -/
def enterBlock (column : Nat) (number? : Option Nat) (kind : TokenKind) (mark : Mark) :
    Find Unit := do
  let s ← get
  if !s.inFlow && s.indent < column then
    set { s with outer := s.indent :: s.outer, indent := column }
    if maxDepth < s.outer.length + 1 then
      fail (.tooDeep maxDepth) ((s.keys.head?.map (·.mark)).getD mark)
    modify fun t =>
      match number? with
      | some n => t.insertAt n ⟨kind, mark, mark⟩
      | none => t.add ⟨kind, mark, mark⟩

/-- The stream after the block collections that are indented beyond a column, which end
at `mark`. -/
def closeBlocks (column : Int) (mark : Mark) : List Int → Stream → Stream
  | [], s => s
  | i :: outer, s =>
      if column < s.indent then
        closeBlocks column mark outer
          { s.add ⟨.blockEnd, mark, mark⟩ with indent := i, outer := outer }
      else s

/-- Leaves the block collections that are indented beyond a column. -/
def leaveBlocks (column : Int) (mark : Mark) : Find Unit :=
  modify fun s => if s.inFlow then s else closeBlocks column mark s.outer s

/-! ### Tokens -/

/-- Sets whether a key may begin next. -/
def allowKey (allowed : Bool) : Find Unit :=
  modify ({ · with keyAllowed := allowed })

/-- Leaves all block collections, and allows no key. -/
def leaveDocument : Find Unit := do
  leaveBlocks (-1) (← here)
  dropKey
  allowKey false

/-- Finds the end of the text, which is at the front of a line. -/
def findEnd : Find Unit := do
  modify fun s =>
    let m := s.cursor.mark
    if m.column = 0 then s
    else { s with cursor := { s.cursor with mark := ⟨m.index, m.line + 1, 0⟩ } }
  leaveDocument
  emit .streamEnd (← here)

/-- Finds a directive. -/
def findDirective : Find Unit := do
  leaveDocument
  let start ← here
  emit (← scan Scan.directive) start

/-- Finds a line between documents. -/
def findMarker (kind : TokenKind) : Find Unit := do
  leaveDocument
  emitSign kind 3

/-- Finds the opening sign of a flow collection. -/
def findOpening (kind : TokenKind) : Find Unit := do
  saveKey
  enterFlow
  allowKey true
  emitSign kind 1

/-- Finds the closing sign of a flow collection. -/
def findClosing (kind : TokenKind) : Find Unit := do
  dropKey
  leaveFlow
  allowKey false
  emitSign kind 1

/-- Finds a comma. -/
def findComma : Find Unit := do
  dropKey
  allowKey true
  emitSign .comma 1

/-- Begins an element or a key of a block collection, if one may begin here. -/
def beginInBlock (refusal : Fault) (kind : TokenKind) : Find Unit := do
  let s ← get
  if !s.inFlow then
    if !s.keyAllowed then fail refusal s.cursor.mark
    enterBlock s.cursor.mark.column none kind s.cursor.mark

/-- Finds the dash of an element. -/
def findDash : Find Unit := do
  beginInBlock .entryNotAllowed .blockSequence
  dropKey
  allowKey true
  emitSign .dash 1

/-- Finds the question mark of a key. -/
def findKey : Find Unit := do
  beginInBlock .keyNotAllowed .blockMapping
  dropKey
  allowKey (!(← get).inFlow)
  emitSign .key 1

/-- Makes a key of what began at a place. -/
def makeKey (k : KeyStart) : Find Unit := do
  modify (·.insertAt k.number ⟨.key, k.mark, k.mark⟩)
  enterBlock k.mark.column (some k.number) .blockMapping k.mark
  modify fun s =>
    { s with
      keys := { k with possible := false } :: s.keys.drop 1
      levelOf := s.levelOf.erase k.number }
  allowKey false

/-- Finds the colon of a value. -/
def findValue : Find Unit := do
  let isKey ← checkKey (← get).flowLevel
  match isKey, (← get).keys with
  | true, k :: _ => makeKey k
  | _, _ =>
      beginInBlock .valueNotAllowed .blockMapping
      allowKey (!(← get).inFlow)
  emitSign .value 1

/-- Finds a token that may begin a key. -/
def findStart (action : Scan TokenKind) : Find Unit := do
  saveKey
  allowKey false
  let start ← here
  emit (← scan action) start

/-- Finds a block. -/
def findBlock (literal : Bool) : Find Unit := do
  dropKey
  allowKey true
  let start ← here
  let text ← scan (Scan.block literal (← get).indent)
  emit (.scalar text false) start

/-- Finds a plain scalar. A key may begin after it if a line ended. -/
def findPlain : Find Unit := do
  saveKey
  allowKey false
  let s ← get
  let f ← scan (Scan.plain s.inFlow (s.indent + 1).toNat)
  emit (.scalar f.text true) s.cursor.mark
  if f.broken then allowKey true

/-- Whether a plain scalar may begin with a character before another one. -/
def beginsPlain (inFlow : Bool) (c next : Char) : Bool :=
  !(isGap c || isSign c) || (c == '-' && !isBlank next) ||
    (!inFlow && (c == '?' || c == ':') && !isGap next)

/-- Finds the token that begins with a character before another one. -/
def findToken (c next : Char) : Find Unit := do
  let inFlow := (← get).inFlow
  if c == '[' then findOpening .flowSequence
  else if c == '\x7b' then findOpening .flowMapping
  else if c == ']' then findClosing .flowSequenceEnd
  else if c == '\x7d' then findClosing .flowMappingEnd
  else if c == ',' then findComma
  else if c == '-' && isGap next then findDash
  else if c == '?' && (inFlow || isGap next) then findKey
  else if c == ':' && (inFlow || isGap next) then findValue
  else if c == '*' then findStart (TokenKind.reference <$> Scan.anchorName)
  else if c == '&' then findStart (TokenKind.anchor <$> Scan.anchorName)
  else if c == '!' then findStart ((fun (h, t) => .tag h t) <$> Scan.tag)
  else if c == '|' && !inFlow then findBlock true
  else if c == '>' && !inFlow then findBlock false
  else if c == '\'' || c == '"' then findStart ((TokenKind.scalar · false) <$> Scan.quoted)
  else if beginsPlain inFlow c next then findPlain
  else fail .noToken (← here)

/-- Moves to the next token and leaves the block collections that are over. They end
where the token before ended. -/
def approach : Find Unit := do
  let s ← get
  let allowed ← scan (do Scan.toNextToken s.inFlow (← Scan.bound) s.keyAllowed)
  allowKey allowed
  leaveBlocks (← here).column s.cursor.mark
  scan (Scan.ensure 4)

/-- Whether the last token found is a dash. -/
def afterDash : Find Bool :=
  return ((← get).queue.getLast?.map (·.kind)) == some .dash

/-- Finds the next tokens. The comment on the rest of the line belongs to a token, except
after a dash. -/
def step : Find Unit := do
  scan (Scan.ensure 1)
  if !(← get).started then
    modify ({ · with started := true })
    emit .streamStart (← here)
  else
    approach
    let s := (← get).cursor
    if s.head == ending then findEnd
    else if s.mark.column == 0 && s.head == '%' then findDirective
    else if s.atMarker then findMarker (if s.head == '-' then .documentStart else .documentEnd)
    else
      findToken s.head (s.peek 1)
      if !(← afterDash) then scan Scan.lineComment

/-- Whether the first token of the queue may still get the token of a key before it. -/
def headIsOpen : Find Bool := do
  let s ← get
  match s.levelOf[s.taken]? with
  | none => return false
  | some level => checkKey level

/-- Finds tokens until the first of the queue can be taken, and two follow it. -/
def fill : Nat → Find Unit
  | 0 => throw (.bare .unknown)
  | fuel + 1 => do
      if 2 < (← get).queue.length then
        if !(← headIsOpen) then
          modify ({ · with ready := true })
          return
      step
      fill fuel

/-- The next token. -/
def head : Find Token := do
  let s ← get
  if !s.ready then fill (s.cursor.left + 8)
  match (← get).queue with
  | t :: _ => return t
  | [] => throw (.bare .unknown)

/-- Takes the next token. -/
def take : Find Unit :=
  modify fun s => { s with queue := s.queue.drop 1, taken := s.taken + 1, ready := false }

end Find

end Scriptlet.Yaml
