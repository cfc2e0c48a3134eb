/-!
# Characters of the format

The classes of characters that the format tells apart. The end of a text is
marked by the character `ending`, which no text contains.
-/

namespace Scriptlet.Yaml

/-- The character that stands for the end of a text. -/
def ending : Char := Char.ofNat 0

/-- The byte order mark. -/
def byteOrderMark : Char := Char.ofNat 0xfeff

/-- Characters that end a line. -/
def isBreak (c : Char) : Bool :=
  let n := c.toNat
  n == 0xa || n == 0xd || n == 0x85 || n == 0x2028 || n == 0x2029

/-- Blanks inside a line. -/
def isBlank (c : Char) : Bool :=
  c == ' ' || c == '\t'

/-- Whether a line is over. -/
def isLineEnd (c : Char) : Bool :=
  isBreak c || c == ending

/-- Whether a word is over. -/
def isGap (c : Char) : Bool :=
  isBlank c || isLineEnd c

/-- Characters that a text may contain. -/
def isAllowed (c : Char) : Bool :=
  let n := c.toNat
  n == 0x9 || n == 0xa || n == 0xd || (0x20 ≤ n && n ≤ 0x7e) || n == 0x85 ||
    (0xa0 ≤ n && n ≤ 0xfffd) || 0x10000 ≤ n

/-- Characters of the names of anchors, directives and tags. -/
def isNameChar (c : Char) : Bool :=
  ('0' ≤ c && c ≤ '9') || ('A' ≤ c && c ≤ 'Z') || ('a' ≤ c && c ≤ 'z') ||
    c == '_' || c == '-'

/-- Characters of the part of a tag that names a resource. -/
def isResourceChar (c : Char) : Bool :=
  isNameChar c || ";/?:@&=+$,.!~*'()[]%".toList.contains c

/-- Characters that may follow the name of an anchor. -/
def endsAnchor (c : Char) : Bool :=
  isGap c || "?:,]\x7d%@`".toList.contains c

/-- The signs with which no plain scalar begins. -/
def isSign (c : Char) : Bool :=
  "-?:,[]\x7b\x7d#&*!|>'\"%@`".toList.contains c

/-- The signs of flow collections, which end a plain scalar in one. -/
def isFlowSign (c : Char) : Bool :=
  ",?[]\x7b\x7d".toList.contains c

/-- The value of a digit of base sixteen. -/
def hexDigit? (c : Char) : Option Nat :=
  if '0' ≤ c && c ≤ '9' then some (c.toNat - '0'.toNat)
  else if 'a' ≤ c && c ≤ 'f' then some (c.toNat - 'a'.toNat + 10)
  else if 'A' ≤ c && c ≤ 'F' then some (c.toNat - 'A'.toNat + 10)
  else none

end Scriptlet.Yaml
