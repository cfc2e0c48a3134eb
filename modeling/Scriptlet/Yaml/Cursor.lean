import Scriptlet.Yaml.Character
import Scriptlet.Yaml.Fault

/-!
# A cursor in a text

A text is loaded block by block, and a block is loaded when a character of it is
asked for, so that a character that is not allowed is a fault only of texts that
are read so far. `Scan` is an action that moves a cursor. What is asked for beyond
the end reads as `ending`.
-/

namespace Scriptlet.Yaml

/-- A place in a text that is loaded in blocks. -/
structure Cursor where
  chars : Array Char
  /-- Where the blocks end that are not loaded yet. -/
  blocks : List Nat
  /-- The number of characters loaded, those after the end included. -/
  loaded : Nat
  /-- Where the cursor was when a block was last loaded. -/
  base : Nat
  mark : Mark
  /-- Whether a line ended after the last character that is no blank. -/
  afterBreak : Bool

/-- An action that moves a cursor. -/
abbrev Scan := StateT Cursor (Except Flaw)

namespace Cursor

/-- The number of bytes of a block. -/
def blockSize : Nat := 512

/-- Where the blocks of a text end. A block ends before the first character that does not
fit into it; `start` is the first byte of the block, and `offset` and `index` are those of
the next character. -/
def blockEnds (start offset index : Nat) : List Char → List Nat
  | [] => if start < offset then [index] else []
  | c :: cs =>
      if start + blockSize < offset + c.utf8Size then
        index :: blockEnds offset (offset + c.utf8Size) (index + 1) cs
      else blockEnds start (offset + c.utf8Size) (index + 1) cs

/-- The beginning of a text. A byte order mark at its front counts for nothing but the
size of the first block. -/
def ofList (cs : List Char) : Cursor :=
  let body := if cs.head? == some byteOrderMark then cs.drop 1 else cs
  let offset := if cs.head? == some byteOrderMark then byteOrderMark.utf8Size else 0
  ⟨body.toArray, blockEnds 0 offset 0 body, 0, 0, .start, false⟩

/-- The character that is `k` places ahead. -/
def peek (s : Cursor) (k : Nat) : Char :=
  s.chars.getD (s.mark.index + k) ending

/-- The character at the cursor. -/
def head (s : Cursor) : Char := s.peek 0

/-- The number of characters ahead. -/
def left (s : Cursor) : Nat :=
  s.chars.size - s.mark.index

/-- Whether a line between documents begins at the cursor. -/
def atMarker (s : Cursor) : Bool :=
  let front := [s.peek 0, s.peek 1, s.peek 2]
  s.mark.column == 0 && (front == ['-', '-', '-'] || front == ['.', '.', '.']) && isGap (s.peek 3)

/-- The cursor after the character at it. -/
def next (s : Cursor) : Cursor :=
  { s with
    mark := ⟨s.mark.index + 1, s.mark.line, s.mark.column + 1⟩
    afterBreak := s.afterBreak && isBlank s.head }

/-- The number of characters of the line end at the cursor. -/
def breakWidth (s : Cursor) : Nat :=
  if s.peek 0 == '\r' && s.peek 1 == '\n' then 2 else if isBreak s.head then 1 else 0

/-- The cursor after the line end at it, if there is one. -/
def nextLine (s : Cursor) : Cursor :=
  if s.breakWidth = 0 then s
  else { s with mark := ⟨s.mark.index + s.breakWidth, s.mark.line + 1, 0⟩, afterBreak := true }

/-- What the line end at the cursor stands for: a line feed, or a separator itself. -/
def breakText (s : Cursor) : String :=
  if s.breakWidth = 0 then ""
  else if s.head.toNat == 0x2028 || s.head.toNat == 0x2029 then s.head.toString
  else "\n"

end Cursor

namespace Scan

/-- Fails in a token that begins at `start`. -/
def fail {α : Type} (f : Fault) (start : Mark) : Scan α := do
  throw (.inToken f start (← get).mark)

/-- Loads blocks until `n` characters are ahead, or the text is over. -/
def load (n : Nat) : List Nat → Scan Unit
  | [] => modify fun s => { s with blocks := [], loaded := s.loaded + 1 }
  | stop :: blocks => do
      let s ← get
      if (s.chars.extract s.loaded stop).all isAllowed then
        set { s with blocks := blocks, loaded := stop }
        if stop - s.mark.index < n then load n blocks
      else throw (.bare .controlCharacter)

/-- Makes sure that `n` characters are loaded ahead. -/
def ensure (n : Nat) : Scan Unit := do
  let s ← get
  if s.loaded - s.mark.index < n then
    set { s with base := s.mark.index }
    load n s.blocks

/-- The character that is `k` places ahead. -/
def peek (k : Nat) : Scan Char :=
  return (← get).peek k

/-- The character at the cursor. -/
def head : Scan Char := peek 0

/-- The place of the cursor. -/
def here : Scan Mark :=
  return (← get).mark

/-- An upper bound for the steps of a loop that moves the cursor at every step. -/
def bound : Scan Nat :=
  return (← get).left + 2

/-- Moves past a character. -/
def skip : Scan Unit :=
  modify Cursor.next

/-- Moves past a character and gives it. -/
def read : Scan Char := do
  let c ← head
  skip
  return c

/-- Moves past a line end. -/
def skipLine : Scan Unit :=
  modify Cursor.nextLine

/-- Moves past a line end and gives what it stands for. -/
def readLine : Scan String := do
  let text := (← get).breakText
  skipLine
  return text

/-- Moves past the line end at the cursor, if there is one. -/
def endLine : Scan Unit := do
  if isBreak (← head) then
    ensure 2
    skipLine

/-- Moves past characters while they are in a class, `fuel` of them at most, and gives
them after the text `found`. -/
def takeLoop (p : Char → Bool) : Nat → String → Scan String
  | 0, found => pure found
  | fuel + 1, found => do
      ensure 1
      if p (← head) then takeLoop p fuel (found.push (← read)) else return found

/-- Moves past the characters at the cursor that are in a class, and gives them. -/
def takeWhile (p : Char → Bool) : Scan String := do
  takeLoop p (← bound) ""

/-- Moves past the characters at the cursor that are in a class. -/
def skipWhile (p : Char → Bool) : Scan Unit := do
  let _ ← takeWhile p

/-- Moves past the rest of the line. -/
def skipToLineEnd : Scan Unit :=
  skipWhile fun c => !isLineEnd c

/-- Moves ahead to a place, over line ends too. -/
def skipTo (index : Nat) : Nat → Scan Unit
  | 0 => pure ()
  | fuel + 1 => do
      ensure 1
      if (← here).index < index then
        if isBreak (← head) then
          ensure 2
          skipLine
        else skip
        skipTo index fuel

/-- How far ahead comments are looked for. -/
def commentReach : Nat := 512

/-- How far ahead the next comment begins, if only characters of the given class come
before it, of which `k` were passed over. -/
def findComment (p : Char → Bool) : Nat → Nat → Scan (Option Nat)
  | 0, _ => return none
  | fuel + 1, k => do
      ensure (k + 1)
      let c ← peek k
      if c == '#' then return some k
      else if p c then findComment p fuel (k + 1)
      else return none

/-- Moves past the comment at the cursor and the comments on lines of their own that
follow it. The end of the last line is left. -/
def comments : Nat → Scan Unit
  | 0 => pure ()
  | fuel + 1 => do
      skipToLineEnd
      match ← findComment (fun c => isBlank c || c == '\n' || c == '\r') (commentReach - 1) 1 with
      | none => pure ()
      | some k =>
          skipTo ((← here).index + k) (k + 1)
          comments fuel

/-- Moves past the comment on the rest of the line, if there is one. -/
def lineComment : Scan Unit := do
  if !(← get).afterBreak then
    match ← findComment isBlank commentReach 0 with
    | none => pure ()
    | some k =>
        skipTo ((← here).index + k) (k + 1)
        skipToLineEnd

/-- Moves to the next token. Tabs are passed over in a flow collection and where no key
may begin. After a line end a key may begin, unless in a flow collection; the result
tells whether one may. Where what was loaded last begins with a byte order mark, the first
character of a line is taken for one. -/
def toNextToken (inFlow : Bool) : Nat → Bool → Scan Bool
  | 0, keyAllowed => return keyAllowed
  | fuel + 1, keyAllowed => do
      ensure 1
      let s ← get
      if s.mark.column = 0 && s.chars.getD s.base ending == byteOrderMark then skip
      skipWhile fun c => c == ' ' || ((inFlow || !keyAllowed) && c == '\t')
      if (← head) == '#' then comments (← bound)
      if isBreak (← head) then
        ensure 2
        skipLine
        toNextToken inFlow fuel (keyAllowed || !inFlow)
      else return keyAllowed

end Scan

end Scriptlet.Yaml
