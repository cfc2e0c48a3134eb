import Scriptlet.Yaml.Cursor
import Scriptlet.Yaml.Token

/-!
# Names in a text

Moving past directives, anchors and tags. A tag is a handle, which a directive may
have introduced, and a suffix; a suffix may have octets written in base sixteen.
-/

namespace Scriptlet.Yaml

namespace Scan

/-- Moves past an octet: a percent sign and two digits. -/
def octet (start : Mark) : Scan Nat := do
  ensure 3
  let s ← get
  match s.head == '%', hexDigit? (s.peek 1), hexDigit? (s.peek 2) with
  | true, some a, some b =>
      skip
      skip
      skip
      return a * 16 + b
  | _, _, _ => fail .noTagOctet start

/-- The number of octets of a character by its leading octet; zero if there is none
such. -/
def octetsOf (n : Nat) : Nat :=
  if n < 0x80 then 1
  else if n < 0xc0 then 0
  else if n < 0xe0 then 2
  else if n < 0xf0 then 3
  else if n < 0xf8 then 4
  else 0

/-- Moves past the trailing octets of a character and gives the code point after the
part `n` of it. -/
def trailingOctets (start : Mark) : Nat → Nat → Scan Nat
  | 0, n => return n
  | more + 1, n => do
      let o ← octet start
      if o / 64 = 2 then trailingOctets start more (n * 64 + o % 64)
      else fail .badTrailingOctet start

/-- Moves past the octets of a character and gives it. -/
def octets (start : Mark) : Scan Char := do
  let o ← octet start
  match octetsOf o with
  | 0 => fail .badLeadingOctet start
  | 1 => return Char.ofNat o
  | width + 1 =>
      let payload := o % (if width = 1 then 32 else if width = 2 then 16 else 8)
      let n ← trailingOctets start width payload
      return if n.isValidChar then Char.ofNat n else Char.ofNat 0xfffd

/-- Moves past the characters of a resource and gives them after the text `found`. -/
def resourceChars (start : Mark) : Nat → String → Scan String
  | 0, found => return found
  | fuel + 1, found => do
      ensure 1
      let c ← head
      if c == '%' then resourceChars start fuel (found.push (← octets start))
      else if isResourceChar c then resourceChars start fuel (found.push (← read))
      else return found

/-- Moves past a resource, of which the part `front` was found already. There must be at
least one character, unless there was a sign before, as `begun` tells. -/
def resource (start : Mark) (begun : Bool) (front : String) : Scan String := do
  let before ← here
  let found ← resourceChars start (← bound) front
  if begun || before.index < (← here).index then return found else fail .noTagName start

/-- Moves past a handle: an exclamation mark, and further a name with another one. In a
directive a name must have one. -/
def handle (start : Mark) (directive : Bool) : Scan String := do
  ensure 1
  if (← head) != '!' then fail .noTagMark start
  skip
  let name ← takeWhile isNameChar
  if (← head) == '!' then
    skip
    return "!" ++ name ++ "!"
  else if directive && !name.isEmpty then fail .noTagMark start
  else return "!" ++ name

/-- Moves past a tag and gives its handle and its suffix. -/
def tag : Scan (String × String) := do
  let start ← here
  ensure 2
  let found ←
    if (← peek 1) == '<' then
      skip
      skip
      let suffix ← resource start false ""
      if (← head) != '>' then fail .noTagEnd start
      skip
      pure ("", suffix)
    else
      let handle ← handle start false
      if 1 < handle.length && handle.endsWith "!" then
        pure (handle, ← resource start false "")
      else
        let suffix ← resource start true (handle.drop 1).toString
        pure (if suffix.isEmpty then ("", "!") else ("!", suffix))
  ensure 1
  if !isGap (← head) then fail .noTagGap start
  return found

/-- Moves past the name of an anchor, or of an alias to one. -/
def anchorName : Scan String := do
  let start ← here
  skip
  let name ← takeWhile isNameChar
  if name.isEmpty || !endsAnchor (← head) then fail .noAnchorName start
  return name

/-- Moves past a number of a version, of two digits at most. -/
def versionNumber (start : Mark) : Nat → Option Nat → Scan Nat
  | 0, _ => fail .longVersion start
  | fuel + 1, n? => do
      ensure 1
      let c ← head
      if '0' ≤ c && c ≤ '9' then
        if fuel = 0 then fail .longVersion start
        skip
        versionNumber start fuel (some (n?.getD 0 * 10 + (c.toNat - '0'.toNat)))
      else
        match n? with
        | none => fail .noVersion start
        | some n => return n

/-- Moves past a version. -/
def version (start : Mark) : Scan TokenKind := do
  skipWhile isBlank
  let major ← versionNumber start 3 none
  if (← head) != '.' then fail .noVersionPoint start
  skip
  return .version major (← versionNumber start 3 none)

/-- Moves past a handle and what it stands for. -/
def handleDirective (start : Mark) : Scan TokenKind := do
  skipWhile isBlank
  let handle ← handle start true
  ensure 1
  if !isBlank (← head) then fail .noBlankInDirective start
  skipWhile isBlank
  let stem ← resource start false ""
  ensure 1
  if !isGap (← head) then fail .noGapInDirective start
  return .handle handle stem

/-- Moves past a directive and the rest of its line. -/
def directive : Scan TokenKind := do
  let start ← here
  skip
  let name ← takeWhile isNameChar
  if name.isEmpty then fail .noDirectiveName start
  if !isGap (← head) then fail .badDirectiveName start
  let found ←
    if name == "YAML" then version start
    else if name == "TAG" then handleDirective start
    else fail .unknownDirective start
  skipWhile isBlank
  if (← head) == '#' then skipToLineEnd
  if !isLineEnd (← head) then fail .noLineEnd start
  endLine
  return found

end Scan

end Scriptlet.Yaml
