import Scriptlet.Text.Letter
import Scriptlet.Text.Mark
import Scriptlet.Text.Digit

/-!
# Characters of words

The characters between which no word boundary falls: letters, nonspacing marks,
digits, connectors and the two joiners.
-/

namespace Scriptlet.Text

/-- Whether `c` belongs to a word when word boundaries are sought. -/
def isWordChar (c : Char) : Bool :=
  isLetter c || isMark c || isDigit c || isConnector c || c.toNat == 0x200c || c.toNat == 0x200d

/-- A boundary falls between two neighbours when exactly one of them belongs to
a word. The edge of the text, `none`, belongs to none. -/
def isBoundary (before after : Option Char) : Bool :=
  before.any isWordChar != after.any isWordChar

end Scriptlet.Text
