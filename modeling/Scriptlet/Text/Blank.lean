import Scriptlet.Text.Ranges

/-!
# Blank and control characters

Blank characters separate words and are trimmed around the text of a number;
control characters are dropped from a word wherever they stand. Line feed and
its like are both.
-/

namespace Scriptlet.Text

/-- The code points with the white space property. -/
def blankRanges : Ranges := #[
  (0x9, 0xd), (0x20, 0x20), (0x85, 0x85), (0xa0, 0xa0), (0x1680, 0x1680),
  (0x2000, 0x200a), (0x2028, 0x2029), (0x202f, 0x202f), (0x205f, 0x205f),
  (0x3000, 0x3000)]

/-- White space, in the sense of the Unicode property of that name. -/
def isBlank (c : Char) : Bool :=
  blankRanges.covers c

/-- A control character: below the space, or from the delete character to the
end of the second control block. -/
def isControl (c : Char) : Bool :=
  c.toNat < 0x20 || (0x7f ≤ c.toNat && c.toNat < 0xa0)

/-- The text without the blanks at its two ends. -/
def trim (cs : List Char) : List Char :=
  ((cs.dropWhile isBlank).reverse.dropWhile isBlank).reverse

end Scriptlet.Text
