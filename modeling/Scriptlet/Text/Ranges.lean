/-!
# Classes of characters as ranges of code points

A class of characters is a list of closed ranges of code points in increasing
order, and a character belongs to it when some range covers its code point. The
tables of the character classes beside this module are all of this form.
-/

namespace Scriptlet.Text

/-- Closed ranges of code points, in increasing order. -/
abbrev Ranges := Array (Nat × Nat)

/-- Whether some range covers the code point of `c`. -/
def Ranges.covers (r : Ranges) (c : Char) : Bool :=
  r.any fun range => range.1 ≤ c.toNat && c.toNat ≤ range.2

end Scriptlet.Text
