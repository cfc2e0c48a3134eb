import Scriptlet.Yaml.Cursor

/-!
# Scalars in a text

Moving past a scalar, plain, in quotes or as a block, and giving the text it stands
for. A line end inside a plain or quoted scalar stands for a blank, and further
line ends for themselves; in a block they are kept, or folded in the same way.
-/

namespace Scriptlet.Yaml

/-- A text, and the gap after it, of which it is not known yet whether the text goes on
after it. -/
structure Folded where
  text : String
  /-- The blanks, if no line ended. -/
  blanks : String
  /-- Whether a line ended. -/
  broken : Bool
  /-- What the first line end stands for. -/
  first : String
  /-- What the further line ends stand for. -/
  further : String
  deriving DecidableEq, Repr

namespace Folded

/-- A text without a gap. -/
def ofText (text : String) : Folded := ⟨text, "", false, "", ""⟩

/-- What a gap with line ends stands for. -/
def fold (first further : String) : String :=
  if first == "\n" then (if further.isEmpty then " " else further) else first ++ further

/-- The text with its gap. -/
def joined (f : Folded) : String :=
  f.text ++ (if f.broken then fold f.first f.further else f.blanks)

/-- The text with one more blank in the gap. -/
def addBlank (f : Folded) (c : Char) : Folded :=
  if f.broken then f else { f with blanks := f.blanks.push c }

/-- The text with one more line end in the gap. -/
def addBreak (f : Folded) (text : String) : Folded :=
  if f.broken then { f with further := f.further ++ text }
  else { f with blanks := "", broken := true, first := f.first ++ text }

end Folded

namespace Scan

/-- Moves past a gap. Tabs are refused after a line end before the column `indent`. -/
def gap (start : Mark) (indent : Nat) : Nat → Folded → Scan Folded
  | 0, f => return f
  | fuel + 1, f => do
      ensure 1
      let c ← head
      if isBlank c then
        if f.broken && (← here).column < indent && c == '\t' then fail .tabInPlain start
        skip
        gap start indent fuel (f.addBlank c)
      else if isBreak c then
        ensure 2
        gap start indent fuel (f.addBreak (← readLine))
      else return f

/-! ### Plain scalars -/

/-- Whether a plain scalar ends at the cursor. -/
def endsPlain (inFlow : Bool) : Scan Bool := do
  let c ← head
  return isGap c || (c == ':' && isGap (← peek 1)) || (inFlow && isFlowSign c)

/-- Moves past a word of a plain scalar. -/
def plainWord (inFlow : Bool) : Nat → Folded → Scan Folded
  | 0, f => return f
  | fuel + 1, f => do
      if ← endsPlain inFlow then return f
      let c ← read
      ensure 2
      plainWord inFlow fuel (.ofText (f.joined.push c))

/-- Moves past the words of a plain scalar. -/
def plainWords (inFlow : Bool) (start : Mark) (indent : Nat) : Nat → Folded → Scan Folded
  | 0, f => return f
  | fuel + 1, f => do
      ensure 4
      if (← get).atMarker || (← head) == '#' then return f
      let f ← plainWord inFlow (← bound) f
      if !(isBlank (← head) || isBreak (← head)) then return f
      let f ← gap start indent (← bound) f
      if !inFlow && (← here).column < indent then return f
      plainWords inFlow start indent fuel f

/-- Moves past a plain scalar whose further lines are indented by at least `indent`. The
result has the gap that follows the scalar. -/
def plain (inFlow : Bool) (indent : Nat) : Scan Folded := do
  plainWords inFlow (← here) indent (← bound) (.ofText "")

/-! ### Scalars in quotes -/

/-- The character of an escape of one letter. -/
def escape? : Char → Option Char
  | '0' => some (Char.ofNat 0)
  | 'a' => some (Char.ofNat 0x07)
  | 'b' => some (Char.ofNat 0x08)
  | 't' | '\t' => some '\t'
  | 'n' => some '\n'
  | 'v' => some (Char.ofNat 0x0b)
  | 'f' => some (Char.ofNat 0x0c)
  | 'r' => some '\r'
  | 'e' => some (Char.ofNat 0x1b)
  | ' ' => some ' '
  | '"' => some '"'
  | '\'' => some '\''
  | '\\' => some '\\'
  | 'N' => some (Char.ofNat 0x85)
  | '_' => some (Char.ofNat 0xa0)
  | 'L' => some (Char.ofNat 0x2028)
  | 'P' => some (Char.ofNat 0x2029)
  | _ => none

/-- The number of digits after an escape by code point. -/
def codeWidth? : Char → Option Nat
  | 'x' => some 2
  | 'u' => some 4
  | 'U' => some 8
  | _ => none

/-- Moves past digits of base sixteen and gives their value after the value `n`. -/
def hexDigits (start : Mark) : Nat → Nat → Scan Nat
  | 0, n => return n
  | width + 1, n => do
      match hexDigit? (← head) with
      | none => fail .noEscapeDigit start
      | some d =>
          skip
          hexDigits start width (n * 16 + d)

/-- Moves past an escape and gives the character it stands for. -/
def escape (start : Mark) : Scan Char := do
  let c ← peek 1
  match escape? c, codeWidth? c with
  | some d, _ =>
      skip
      skip
      return d
  | none, some width => do
      skip
      skip
      ensure width
      let n ← hexDigits start width 0
      if n.isValidChar then return Char.ofNat n else fail .badEscapeCode start
  | none, none => fail .unknownEscape start

/-- Moves past a word of a quoted scalar and gives the text so far, and whether an escaped
line end follows the word. -/
def quotedWord (quote : Char) (start : Mark) : Nat → String → Scan (String × Bool)
  | 0, text => return (text, false)
  | fuel + 1, text => do
      let c ← head
      if isGap c then return (text, false)
      else if c == quote then
        if quote == '\'' && (← peek 1) == '\'' then
          skip
          skip
          ensure 2
          quotedWord quote start fuel (text.push c)
        else return (text, false)
      else if c == '\\' && quote == '"' then
        if isBreak (← peek 1) then
          ensure 3
          skip
          skipLine
          return (text, true)
        else
          let d ← escape start
          ensure 2
          quotedWord quote start fuel (text.push d)
      else
        skip
        ensure 2
        quotedWord quote start fuel (text.push c)

/-- Moves past the words of a quoted scalar, up to its closing quote. -/
def quotedWords (quote : Char) (start : Mark) : Nat → String → Scan String
  | 0, text => return text
  | fuel + 1, text => do
      ensure 4
      if (← get).atMarker then fail .markerInQuotes start
      if (← head) == ending then fail .endInQuotes start
      let (text, broken) ← quotedWord quote start (← bound) text
      ensure 1
      if (← head) == quote then return text
      let f ← gap start 0 (← bound) { Folded.ofText text with broken := broken }
      quotedWords quote start fuel f.joined

/-- Moves past a scalar in quotes. -/
def quoted : Scan String := do
  let start ← here
  let quote ← read
  let text ← quotedWords quote start (← bound) ""
  skip
  return text

/-! ### Blocks -/

/-- What becomes of the line ends at the end of a block. -/
inductive Chomp where
  | strip
  | clip
  | keep
  deriving DecidableEq, Repr

/-- The sign at the cursor that tells what becomes of the line ends at the end. -/
def chomp? : Scan (Option Chomp) := do
  ensure 1
  match ← head with
  | '+' => skip; return some .keep
  | '-' => skip; return some .strip
  | _ => return none

/-- The digit at the cursor that tells the indentation; zero if there is none. -/
def indentation (start : Mark) : Scan Nat := do
  ensure 1
  let c ← head
  if c == '0' then fail .zeroIndentation start
  else if '1' ≤ c && c ≤ '9' then
    skip
    return c.toNat - '0'.toNat
  else return 0

/-- Moves past the head of a block: the two signs in either order, and a comment. -/
def blockHead (start : Mark) : Scan (Chomp × Nat) := do
  skip
  let head? ← chomp?
  let width ← indentation start
  let tail? ← if head?.isNone && width != 0 then chomp? else pure none
  skipWhile isBlank
  if (← head) == '#' then skipToLineEnd
  if !isLineEnd (← head) then fail .noLineEnd start
  endLine
  return ((head? <|> tail?).getD .clip, width)

/-- Moves past empty lines and the indentation of the next line, and gives what the line
ends stand for, and the largest column that was reached. Without an indentation, which is
zero, all spaces are passed over. -/
def emptyLines (start : Mark) (indent : Nat) : Nat → Nat → String → Scan (Nat × String)
  | 0, reached, found => return (reached, found)
  | fuel + 1, reached, found => do
      ensure 1
      let s ← get
      let _ ← takeLoop (· == ' ') (if indent = 0 then s.left + 1 else indent - s.mark.column) ""
      let s ← get
      let reached := max reached s.mark.column
      if (indent = 0 || s.mark.column < indent) && s.head == '\t' then fail .tabInBlock start
      if isBreak s.head then
        ensure 2
        emptyLines start indent fuel reached (found ++ (← readLine))
      else return (reached, found)

/-- Moves past the lines of a block and gives its text. `first` is what the end of the line
before stands for, `further` what those of the empty lines after it stand for, and
`afterBlank` tells whether the line before began with a blank. -/
def blockLines (literal : Bool) (chomp : Chomp) (start : Mark) (indent : Nat) :
    Nat → Bool → String → String → String → Scan String
  | 0, _, _, _, text => return text
  | fuel + 1, afterBlank, first, further, text => do
      let s ← get
      if s.mark.column = indent && s.head != ending then
        let blank := isBlank s.head
        let gap :=
          if !literal && !afterBlank && !blank && first == "\n" then
            (if further.isEmpty then " " else further)
          else first ++ further
        let line ← takeWhile fun c => !isLineEnd c
        ensure 2
        let first ← readLine
        let (_, further) ← emptyLines start indent (← bound) 0 ""
        blockLines literal chomp start indent fuel blank first further (text ++ gap ++ line)
      else
        return match chomp with
          | .strip => text
          | .clip => text ++ first
          | .keep => text ++ first ++ further

/-- Moves past a block inside a collection that is indented by `parent`. -/
def block (literal : Bool) (parent : Int) : Scan String := do
  let start ← here
  let (chomp, width) ← blockHead start
  let told := if width = 0 then 0 else parent.toNat + width
  let (reached, further) ← emptyLines start told (← bound) 0 ""
  let indent := if told = 0 then max (max reached (parent + 1).toNat) 1 else told
  blockLines literal chomp start indent (← bound) false "" further ""

end Scan

end Scriptlet.Yaml
