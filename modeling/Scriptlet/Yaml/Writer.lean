import Scriptlet.HostData
import Scriptlet.Text.Base64
import Scriptlet.Text.Quoted
import Scriptlet.Yaml.Character
import Scriptlet.Yaml.KeyOrder
import Scriptlet.Yaml.Scalar

/-!
# Writing YAML

Data under their names as a block mapping. A text is written in the plainest
style that reads back: plain, in single quotes, in double quotes, or as a literal
block when it has several lines. `Writer.style` decides by what the text contains.
A string that is no text is written in base sixty-four, with a tag that says so.
-/

namespace Scriptlet.Yaml

/-- The four ways to write a text. -/
inductive Style where
  | plain
  | single
  | double
  | literal
  deriving DecidableEq, Repr

namespace Writer

/-- Characters that may stand in a text as they are. -/
def isPlainPrintable (c : Char) : Bool :=
  let n := c.toNat
  n == 0xa || (0x20 ≤ n && n ≤ 0x7e) || (0xa0 ≤ n && n ≤ 0xd7ff) ||
    (0xe000 ≤ n && n ≤ 0xfffd && n != 0xfeff)

/-- Whether some two neighbours are related. -/
def anyPair (p : Char → Char → Bool) : List Char → Bool
  | a :: b :: cs => p a b || anyPair p (b :: cs)
  | _ => false

/-- Whether the first character, with what follows, would be taken for a sign of the
format. -/
def startsAsSign : List Char → Bool
  | [] => false
  | c :: cs =>
      "#,[]\x7b\x7d&*!|>'\"%@`".toList.contains c ||
        ("?:-".toList.contains c && cs.head?.all fun d => isBlank d)

/-- Whether the text begins like a line between documents. -/
def startsAsMarker (cs : List Char) : Bool :=
  let front := cs.take 3
  front == "---".toList || front == "...".toList

/-- Whether a colon after the first character ends a key, or a number sign begins a
comment. -/
def containsSign (cs : List Char) : Bool :=
  anyPair (fun a b => (a == ':' && isBlank b) || ((isBlank a || isBreak a) && b == '#')) cs ||
    (1 < cs.length && cs.getLast? == some ':')

/-- Whether the format would take a plain text for something else. -/
def hasIndicators (cs : List Char) : Bool :=
  startsAsMarker cs || startsAsSign cs || containsSign cs

/-- Whether a text has characters that only double quotes can hold. -/
def hasSpecial (cs : List Char) : Bool :=
  cs.any fun c => c != '\t' && !isPlainPrintable c

/-- Whether a space ends a line inside the text. -/
def spaceBeforeBreak (cs : List Char) : Bool :=
  anyPair (fun a b => a == ' ' && isBreak b) cs

/-- Whether a space begins a line inside the text. -/
def spaceAfterBreak (cs : List Char) : Bool :=
  anyPair (fun a b => isBreak a && b == ' ') cs

/-- Whether the text can be written without quotes. -/
def plainAllowed (cs : List Char) : Bool :=
  !(hasIndicators cs || cs.any isBreak || cs.contains '\t' || hasSpecial cs ||
    cs.head? == some ' ' || cs.getLast? == some ' ')

/-- Whether the text can be written in single quotes. -/
def singleAllowed (cs : List Char) : Bool :=
  !(spaceAfterBreak cs || spaceBeforeBreak cs || cs.contains '\t' || hasSpecial cs)

/-- Whether the text can be written as a literal block. -/
def literalAllowed (cs : List Char) : Bool :=
  !(cs.isEmpty || cs.getLast? == some ' ' || spaceBeforeBreak cs || hasSpecial cs)

/-- The words that older readers take for truth values. -/
def oldTruths : List String :=
  ["y", "Y", "yes", "Yes", "YES", "on", "On", "ON", "n", "N", "no", "No", "NO", "off", "Off", "OFF"]

/-- Whether the text goes on as groups of one or two digits of base sixty, each after
a colon, and an optional fraction. -/
def sexagesimalTail : Nat → List Char → Bool
  | 0, _ => false
  | fuel + 1, cs =>
      match cs with
      | ':' :: d :: rest =>
          let (group, rest) := match rest with
            | e :: rest' =>
                if Numeral.isDigit e && '0' ≤ d && d ≤ '5' then ([d, e], rest') else ([d], rest)
            | [] => ([d], [])
          group.all Numeral.isDigit &&
            (rest.isEmpty || sexagesimalTail fuel rest ||
              (rest.head? == some '.' && (rest.drop 1).all fun c => Numeral.isDigit c || c == '_'))
      | _ => false

/-- Whether older readers take the text for a number of base sixty. -/
def isSexagesimal (cs : List Char) : Bool :=
  match (Numeral.splitSign cs).2 with
  | d :: rest =>
      Numeral.isDigit d &&
        sexagesimalTail rest.length (rest.dropWhile fun c => Numeral.isDigit c || c == '_')
  | [] => false

/-- Whether a reader would take the plain text for something else than a text. -/
def isAmbiguous (cs : List Char) : Bool :=
  !Scalar.isText cs || isSexagesimal cs || oldTruths.contains (String.ofList cs)

/-- The style of a text. Several lines ask for a literal block and an ambiguous text
for double quotes; a style that the text does not allow gives way to the next. -/
def style (cs : List Char) : Style :=
  if cs.contains '\n' then (if literalAllowed cs then .literal else .double)
  else if isAmbiguous cs then .double
  else if plainAllowed cs then .plain
  else if singleAllowed cs then .single
  else .double

/-- The digits of `n` in base sixteen, in capitals, filled up to `width`. -/
def hexCapitals (width n : Nat) : String :=
  (Text.Quoted.hex width n).toUpper

/-- A character inside double quotes. Where `all` is set, none but the escapes are
written. -/
def doubleChar (all : Bool) (c : Char) : String :=
  let n := c.toNat
  if n == 0x00 then "\\0"
  else if n == 0x07 then "\\a"
  else if n == 0x08 then "\\b"
  else if n == 0x09 then "\\t"
  else if n == 0x0a then "\\n"
  else if n == 0x0b then "\\v"
  else if n == 0x0c then "\\f"
  else if n == 0x0d then "\\r"
  else if n == 0x1b then "\\e"
  else if n == 0x22 then "\\\""
  else if n == 0x5c then "\\\\"
  else if n == 0x85 then "\\N"
  else if n == 0xa0 && all then "\\_"
  else if n == 0x2028 then "\\L"
  else if n == 0x2029 then "\\P"
  else if isPlainPrintable c && !all then c.toString
  else if n ≤ 0xff then "\\x" ++ hexCapitals 2 n
  else if n ≤ 0xffff then "\\u" ++ hexCapitals 4 n
  else "\\U" ++ hexCapitals 8 n

/-- A text inside double quotes. After a byte order mark at its front every character is
escaped. -/
def doubleText (cs : List Char) : String :=
  String.join (cs.map (doubleChar (cs.head?.any fun c => c.toNat == 0xfeff)))

/-- The blanks at the front of an indented line. -/
def pad (indent : Nat) : String :=
  String.ofList (List.replicate indent ' ')

/-- The characters inside single quotes. A quote is written twice, and after a line
separator the text goes on indented. -/
def singleText (indent : Nat) (afterBreak : Bool) : List Char → String
  | [] => ""
  | c :: cs =>
      if isBreak c then c.toString ++ singleText indent true cs
      else
        (if afterBreak then pad indent else "") ++ (if c == '\'' then "''" else c.toString) ++
          singleText indent false cs

/-- The lines of a literal block. Empty lines stay empty. -/
def literalText (indent : Nat) (afterBreak : Bool) : List Char → String
  | [] => ""
  | c :: cs =>
      if isBreak c then c.toString ++ literalText indent true cs
      else (if afterBreak then pad indent else "") ++ c.toString ++ literalText indent false cs

/-- The head of a literal block: whether its indentation must be told, and what
becomes of the line ends at its end. -/
def literalHead (cs : List Char) : String :=
  let hint := if cs.head?.any fun c => c == ' ' || isBreak c then "2" else ""
  let chomp := match cs.reverse with
    | [] => "-"
    | [c] => if isBreak c then "+" else "-"
    | c :: d :: _ => if !isBreak c then "-" else if isBreak d then "+" else ""
  "|" ++ hint ++ chomp

/-- A literal block. A line end at its front ends the line of the head. -/
def literalBlock (indent : Nat) (cs : List Char) : String :=
  let lineEnd := if cs.head?.any isBreak then "" else "\n"
  literalHead cs ++ lineEnd ++ literalText indent true cs

/-- A text whose further lines are indented by `indent`. -/
def text (indent : Nat) (s : String) : String :=
  let cs := s.toList
  match style cs with
  | .plain => s
  | .single => "'" ++ singleText indent false cs ++ "'"
  | .double => "\"" ++ doubleText cs ++ "\""
  | .literal => literalBlock indent cs

/-- Digits in lines of seventy, of which the first has room for `room`. -/
def digitLines (room : Nat) : List Char → List Char
  | [] => ['\n']
  | c :: cs =>
      match room with
      | 0 => '\n' :: c :: digitLines 69 cs
      | left + 1 => c :: digitLines left cs

/-- A string that writes no text: on one line, if there is room for it. -/
def binary (indent : Nat) (o : Octets) : String :=
  let digits := Text.Base64.digits o.bytes
  "!!binary " ++
    if digits.length < 70 then String.ofList digits else literalBlock indent (digitLines 70 digits)

/-- A string whose further lines are indented by `indent`. -/
def string (indent : Nat) (o : Octets) : String :=
  if o.isText then text indent o.toString else binary indent o

/-- A double. -/
def float (x : Float) : String :=
  if x.isNaN then ".nan"
  else if x.isInf then (if x < 0 then "-.inf" else ".inf")
  else Binary64.text x

/-- The text with its last line ended. A line separator ends a line too. -/
def endLine (s : String) : String :=
  if s.toList.getLast?.any isBreak then s else s ++ "\n"

mutual

/-- A datum that stands after a sign of the format, with `indent` for its further lines.
There is none for data that no value becomes. -/
def node (indent : Nat) : HostData → Option String
  | .text o => some (string indent o)
  | .int64 n => some (toString n.toInt)
  | .float64 x => some (float x)
  | .bool b => some (if b then "true" else "false")
  | .list [] => some "[]"
  | .list (d :: ds) => do
      return "- " ++ endLine (← node (indent + 2) d) ++ (← items indent ds)
  | _ => none

/-- The elements of a sequence after the first, on lines of their own. -/
def items (indent : Nat) : List HostData → Option String
  | [] => some ""
  | d :: ds => do
      return pad indent ++ "- " ++ endLine (← node (indent + 2) d) ++ (← items indent ds)

end

/-- Whether a datum is written on the lines after its key. -/
def onOwnLines : HostData → Bool
  | .list (_ :: _) => true
  | _ => false

/-- Whether a key is written on a line of its own, because it has several lines or is
very long. -/
def isLongKey (key : String) : Bool :=
  key.toList.any isBreak || 128 < key.utf8ByteSize

/-- A key with its datum. -/
def entry (key : String) (d : HostData) : Option String := do
  let written ← node 2 d
  if isLongKey key then return "? " ++ endLine (text 2 key) ++ ": " ++ endLine written
  else
    let gap := if onOwnLines d then "\n  " else " "
    return text 2 key ++ ":" ++ gap ++ endLine written

end Writer

/-- A mapping from names to data as YAML, in the order of the names. -/
def write (entries : List (String × HostData)) : Option String :=
  if entries.isEmpty then some "\x7b\x7d\n"
  else String.join <$> (KeyOrder.sort entries).mapM fun (key, d) => Writer.entry key d

end Scriptlet.Yaml
