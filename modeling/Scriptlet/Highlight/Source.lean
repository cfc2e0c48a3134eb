import Scriptlet.Highlight.Line
import Scriptlet.Text.Blank
import Scriptlet.Text.Lines
import Scriptlet.Text.Word

/-!
# Colouring a source

A whole source in the colours of a terminal with 256 of them. The text is cut by
rules of its own, which are coarser than the tokens of the language and never
fail: at each place the first rule that matches takes its characters, and where
none does a single character is marked as an error.
-/

namespace Scriptlet.Highlight

/-- The styles that pieces of a source are shown in. -/
inductive Style where
  | comment
  | plain
  | string
  | keyword
  | operator
  | number
  | function
  | error
  deriving DecidableEq, Repr

/-- The control sequences that switch to a style. -/
def Style.code : Style → String
  | comment => "\x1b[38;5;242m"
  | plain => "\x1b[38;5;231m"
  | string => "\x1b[38;5;186m"
  | keyword => "\x1b[38;5;81m"
  | operator => "\x1b[38;5;197m"
  | number => "\x1b[38;5;141m"
  | function => "\x1b[38;5;148m"
  | error => "\x1b[38;5;89m\x1b[48;5;232m"

/-- The number of characters at the front that a rule takes, none if it does not
match. It may look at the character before. -/
abbrev Rule := Option Char → List Char → Nat

/-- The number of characters at the front in a class. -/
def run (p : Char → Bool) (cs : List Char) : Nat :=
  (cs.takeWhile p).length

/-- From a number sign to the end of the line. -/
def commentRule : Rule
  | _, '#' :: cs => 1 + run Lexer.inComment cs
  | _, _ => 0

/-- Blanks. -/
def blankRule : Rule := fun _ cs => run Text.isBlank cs

/-- From a quote to the next. -/
def stringRule : Rule
  | _, '"' :: cs =>
      match Lexer.untilQuote cs with
      | some (text, _) => text.length + 2
      | none => 0
  | _, _ => 0

/-- The length of a word at the front that stands alone, compared by `same`. -/
def wordLength (same : Char → Char) (before : Option Char) (cs word : List Char) : Nat :=
  let found := cs.take word.length
  if found.map same == word && Text.isBoundary before cs.head? &&
      Text.isBoundary found.getLast? (cs.drop word.length).head? then word.length
  else 0

/-- The first number that is not zero, or zero. -/
def firstLength (lengths : List Nat) : Nat :=
  (lengths.find? (· != 0)).getD 0

/-- One of several words that stands alone. -/
def wordRule (words : List String) : Rule := fun before cs =>
  firstLength (words.map fun w => wordLength id before cs w.toList)

/-- A truth value, in any case. -/
def truthRule : Rule := fun before cs =>
  firstLength (["true", "false"].map fun w => wordLength Numeral.lower before cs w.toList)

/-- Digits with a point among them or at either end. -/
def fractionRule : Rule := fun _ cs =>
  let whole := run Text.isDigit cs
  match cs.drop whole with
  | '.' :: rest =>
      let places := run Text.isDigit rest
      if whole = 0 && places = 0 then 0 else whole + 1 + places
  | _ => 0

/-- Digits. -/
def digitsRule : Rule := fun _ cs => run Text.isDigit cs

/-- A letter of ASCII or a low line, with which a name begins. -/
def startsName (c : Char) : Bool :=
  ('a' ≤ c && c ≤ 'z') || ('A' ≤ c && c ≤ 'Z') || c == '_'

/-- A name of ASCII letters, digits and low lines. -/
def nameRule : Rule
  | _, c :: cs =>
      if startsName c then 1 + run (fun d => startsName d || Numeral.isDigit d) cs else 0
  | _, [] => 0

/-- A name before an opening parenthesis. -/
def calledRule : Rule := fun before cs =>
  let length := nameRule before cs
  if (cs.drop length).head? == some '(' then length else 0

/-- An operator, with an equals sign if one follows. -/
def operatorRule : Rule
  | _, c :: '=' :: _ =>
      if "-+*/=<>".toList.contains c then 2 else if "%&".toList.contains c then 1 else 0
  | _, c :: _ => if "-+*/%=<>&".toList.contains c then 1 else 0
  | _, [] => 0

/-- A bracket or a separator. -/
def punctuationRule : Rule
  | _, c :: _ => if "()\x7b\x7d;,".toList.contains c then 1 else 0
  | _, [] => 0

/-- The rules in the order in which they are tried. -/
def rules : List (Style × Rule) :=
  [(.comment, commentRule), (.plain, blankRule), (.string, stringRule),
    (.keyword, wordRule ["IF", "WHILE", "FOR", "IN", "BREAK", "CONTINUE", "RETURN"]),
    (.keyword, wordRule ["DEF", "IMP"]), (.operator, wordRule ["AND", "OR"]),
    (.keyword, truthRule), (.number, fractionRule), (.number, digitsRule),
    (.function, calledRule), (.plain, nameRule), (.operator, operatorRule),
    (.plain, punctuationRule)]

/-- The style of the piece at the front, and its length after the first character. -/
def pieceAt (before : Option Char) (cs : List Char) : Style × Nat :=
  let found := rules.findSome? fun (style, rule) =>
    match rule before cs with
    | 0 => none
    | n + 1 => some (style, n)
  found.getD (.error, 0)

/-- The pieces of a text that follows on the character `before`. -/
def sourcePieces (before : Option Char) : List Char → List (Style × List Char)
  | [] => []
  | c :: cs =>
      let (style, n) := pieceAt before (c :: cs)
      let piece := c :: cs.take n
      (style, piece) :: sourcePieces piece.getLast? (cs.drop n)
termination_by cs => cs.length
decreasing_by
  simp only [List.length_cons, List.length_drop]
  omega

/-- A source with its pieces in colour, or as it is with colours off. -/
def source (on : Bool) (text : String) : String :=
  if on then
    String.join ((sourcePieces none (Text.normalizeLines text.toList)).map fun (style, cs) =>
      style.code ++ String.ofList cs ++ reset)
  else text

end Scriptlet.Highlight
