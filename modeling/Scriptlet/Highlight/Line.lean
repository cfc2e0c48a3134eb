import Scriptlet.Text.Quoted
import Scriptlet.Token.Lexer
import Scriptlet.Value

/-!
# Colouring a line

The colours in which a line under edit and a result are shown. The line is cut
at the tokens of the language; literals and reserved words are coloured, and all
else stands as it is, including what follows an unclosed quote. With colours off
every text stays as it is.
-/

namespace Scriptlet

namespace Highlight

/-- The colours that tokens and values are shown in. -/
inductive Color where
  | green
  | yellow
  | blue
  | magenta
  deriving DecidableEq, Repr

/-- The control sequence that switches to a colour. -/
def Color.code : Color → String
  | green => "\x1b[32m"
  | yellow => "\x1b[33m"
  | blue => "\x1b[34m"
  | magenta => "\x1b[35m"

/-- The control sequence that ends a coloured text. -/
def reset : String := "\x1b[0m"

/-- A text in a colour, if colours are on and there is one. -/
def paint (on : Bool) (color? : Option Color) (text : String) : String :=
  match on, color? with
  | true, some color => color.code ++ text ++ reset
  | _, _ => text

/-- The colour of a lexeme. -/
def lexemeColor? : Lexeme → Option Color
  | .string _ => some .green
  | .int .. | .float .. => some .magenta
  | .bool .. => some .yellow
  | .keyword _ | .op .and | .op .or => some .blue
  | _ => none

/-- The pieces that tokens cut the characters after the offset `i` into, each with
its colour. -/
def pieces (i : Nat) (cs : List Char) : List Token → List (Option Color × List Char)
  | [] => [(none, cs)]
  | t :: ts =>
      let gap := t.pos.offset - i
      let after := cs.drop gap
      (none, cs.take gap) :: (lexemeColor? t.lexeme, after.take t.length) ::
        pieces (t.pos.offset + t.length) (after.drop t.length) ts

/-- A line with its tokens coloured. -/
def line (on : Bool) (text : String) : String :=
  String.join ((pieces 0 text.toList (tokenize text).tokens).map fun (color?, cs) =>
    paint on color? (String.ofList cs))

/-- A result as it is shown to a user: text in quotes, and all but arrays in colour. -/
def value (on : Bool) : Value → Octets
  | .string s => paint on (some .green) (Text.Quoted.quote s)
  | .int n => paint on (some .magenta) (Value.int n).text.toString
  | .float x => paint on (some .magenta) (Value.float x).text.toString
  | .bool b => paint on (some .yellow) (Value.bool b).text.toString
  | v => v.text

end Highlight

end Scriptlet
