import Scriptlet.Number.Numeral
import Scriptlet.Yaml.Fault
import Scriptlet.Yaml.Tag
import Scriptlet.Yaml.Timestamp

/-!
# Plain scalars

What a scalar without quotes stands for: nothing, a truth value, an integer, a
double, a date, or else its own text. Reading uses it directly, and writing uses
it to tell which texts need quotes. A tag says what a scalar has to stand for.
-/

namespace Scriptlet.Yaml

/-- What a plain scalar stands for. -/
inductive Scalar where
  | null
  | bool (b : Bool)
  | int (n : Int)
  | float (x : Float)
  | instant (t : Timestamp)
  | text

namespace Scalar

/-- The kind of what a scalar stands for. -/
def tag : Scalar → Tag
  | null => .null
  | bool _ => .bool
  | int _ => .int
  | float _ => .float
  | instant _ => .instant
  | text => .text

/-- The words with a meaning of their own. -/
def word? : String → Option Scalar
  | "" | "~" | "null" | "Null" | "NULL" => some .null
  | "true" | "True" | "TRUE" => some (.bool true)
  | "false" | "False" | "FALSE" => some (.bool false)
  | ".nan" | ".NaN" | ".NAN" => some (.float (0.0 / 0.0))
  | ".inf" | ".Inf" | ".INF" | "+.inf" | "+.Inf" | "+.INF" => some (.float (1.0 / 0.0))
  | "-.inf" | "-.Inf" | "-.INF" => some (.float (-1.0 / 0.0))
  | _ => none

/-- The value of digits in a base of at most sixteen, if all are digits of it. -/
def digits? (radix : Nat) (cs : List Char) : Option Nat :=
  cs.foldlM (fun n c =>
    (Numeral.Base.hexadecimal.digit? c).bind fun d =>
      if d < radix then some (n * radix + d) else none)
    0

/-- An unsigned integer. A leading zero announces base eight, and with a letter after
it base two, eight or sixteen. -/
def natural? : List Char → Option Nat
  | [] => none
  | ['0'] => some 0
  | '0' :: mark :: c :: cs =>
      match Numeral.lower mark with
      | 'b' => digits? 2 (c :: cs)
      | 'o' => digits? 8 (c :: cs)
      | 'x' => digits? 16 (c :: cs)
      | _ => digits? 8 (mark :: c :: cs)
  | '0' :: cs => digits? 8 cs
  | cs => digits? 10 cs

/-- An integer between the least of sixty-four signed bits and the largest of
sixty-four unsigned ones. Above the signed ones there may be no sign. -/
def integer? (cs : List Char) : Option Int :=
  let (negative, body) := Numeral.splitSign cs
  (natural? body).bind fun n =>
    let signed : Int := if negative then -n else n
    if Int64.minValue.toInt ≤ signed ∧ signed ≤ Int64.maxValue.toInt then some signed
    else if body.length = cs.length ∧ signed < UInt64.size then some signed
    else none

/-- An integer with its sign after the mark of base two or eight. -/
def signAfterMark? : List Char → Option Int
  | '0' :: mark :: sign :: c :: cs =>
      let radix? := if mark == 'b' then some 2 else if mark == 'o' then some 8 else none
      if sign == '+' || sign == '-' then
        (radix?.bind fun radix => digits? radix (c :: cs)).bind fun n =>
          let signed : Int := if sign == '-' then -n else n
          if Int64.minValue.toInt ≤ signed ∧ signed ≤ Int64.maxValue.toInt then some signed
          else none
      else none
  | _ => none

/-- Whether a text is a decimal number: digits with an optional point among them, and
an optional exponent. -/
def isDecimal (cs : List Char) : Bool :=
  let body := (Numeral.splitSign cs).2
  let mantissa := body.takeWhile fun c => Numeral.isDigit c || c == '.'
  let exponent := match body.drop mantissa.length with
    | [] => true
    | e :: rest =>
        let ds := (Numeral.splitSign rest).2
        Numeral.lower e == 'e' && !ds.isEmpty && ds.all Numeral.isDigit
  mantissa.any Numeral.isDigit && mantissa.count '.' ≤ 1 && exponent

/-- The number, or if `dates` is set the date, that a text beginning with a digit or a
sign stands for. Low lines are passed over in numbers. -/
def number (dates : Bool) (cs : List Char) : Scalar :=
  match if dates then Timestamp.ofList? cs else none with
  | some t => .instant t
  | none =>
      let bare := cs.filter (· != '_')
      match integer? bare with
      | some n => .int n
      | none =>
          match if isDecimal bare then Numeral.float? bare else none with
          | some x => .float x
          | none => ((signAfterMark? bare).map Scalar.int).getD .text

/-- What a plain scalar stands for. Dates are looked for if `dates` is set. -/
def resolveWith (dates : Bool) (cs : List Char) : Scalar :=
  match word? (String.ofList cs) with
  | some s => s
  | none =>
      match cs with
      | [] => .null
      | c :: _ =>
          if c == '.' then ((Numeral.float? cs).map Scalar.float).getD .text
          else if Numeral.isDigit c || c == '+' || c == '-' then number dates cs
          else .text

/-- What a plain scalar stands for. -/
def resolve (cs : List Char) : Scalar :=
  resolveWith true cs

/-- Whether a plain scalar stands for its own text. -/
def isText (cs : List Char) : Bool :=
  match resolve cs with
  | .text => true
  | _ => false

/-- What a scalar stands for that has to be of the given kind. An integer of sixty-four
signed bits does for a double, and a kind that is none of a scalar leaves the text. -/
def resolveAs (tag : Tag) (text : String) : Except Fault Scalar :=
  match tag with
  | .null | .bool | .int | .float | .instant =>
      let found := resolveWith (tag = .instant) text.toList
      match tag, found with
      | .float, .int n =>
          if n ≤ Int64.maxValue.toInt then .ok (.float (Int64.ofInt n).toFloat)
          else .error (.mismatch found.tag.name text tag.name)
      | _, _ =>
          if found.tag = tag then .ok found
          else .error (.mismatch found.tag.name text tag.name)
  | _ => .ok .text

end Scalar

end Scriptlet.Yaml
