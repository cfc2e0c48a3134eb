import Scriptlet.Number.Binary64

/-!
# Numerals

How numbers are read. An integer is an optional sign and decimal digits, and it
must fit into sixty-four bits. A double is written in decimal, with an optional
fraction and exponent, or in base sixteen with an exponent of two, which is then
mandatory; low lines may stand between digits. The words for infinity and for
what is not a number are read too, in any case.

Only the digits and letters of ASCII take part, so the classes here are those of
ASCII.
-/

namespace Scriptlet.Numeral

/-- A decimal digit. -/
def isDigit (c : Char) : Bool :=
  '0' ≤ c && c ≤ '9'

/-- The lower case form of an ASCII letter; other characters stay. -/
def lower (c : Char) : Char :=
  if 'A' ≤ c && c ≤ 'Z' then Char.ofNat (c.toNat + 32) else c

/-- The two bases in which a double may be written. -/
inductive Base where
  | decimal
  | hexadecimal
  deriving DecidableEq, Repr

/-- The value of a digit, if it is one in this base. -/
def Base.digit? (b : Base) (c : Char) : Option Nat :=
  if isDigit c then some (c.toNat - '0'.toNat)
  else if b = .hexadecimal ∧ 'a' ≤ lower c ∧ lower c ≤ 'f' then
    some ((lower c).toNat - 'a'.toNat + 10)
  else none

/-- The number of values a digit may have. -/
def Base.radix : Base → Nat
  | .decimal => 10
  | .hexadecimal => 16

/-- The letter, in lower case, before an exponent. -/
def Base.exponentMark : Base → Char
  | .decimal => 'e'
  | .hexadecimal => 'p'

/-- The natural number written by the digits of `cs`; other characters are
passed over. -/
def Base.natOf (b : Base) (cs : List Char) : Nat :=
  (cs.filterMap b.digit?).foldl (fun n d => n * b.radix + d) 0

/-- A sign in front, and what follows it. Without a sign the number is positive. -/
def splitSign : List Char → Bool × List Char
  | '+' :: cs => (false, cs)
  | '-' :: cs => (true, cs)
  | cs => (false, cs)

/-- The integer that `cs` writes, whatever its size. -/
def integer? (cs : List Char) : Option Int :=
  let (negative, digits) := splitSign cs
  if digits.isEmpty || !digits.all isDigit then none
  else
    let n : Int := Base.decimal.natOf digits
    some (if negative then -n else n)

/-- The integer that `cs` writes, if it fits into sixty-four bits. -/
def int? (cs : List Char) : Option Int64 :=
  (integer? cs).bind fun n =>
    if Int64.minValue.toInt ≤ n ∧ n ≤ Int64.maxValue.toInt then some (Int64.ofInt n) else none

/-- A number as it is written: the characters of the mantissa, and the exponent
if one is given. -/
structure Written where
  base : Base
  mantissa : List Char
  exponent? : Option Int

/-- The characters that a mantissa is made of. -/
def Base.inMantissa (b : Base) (c : Char) : Bool :=
  c == '_' || c == '.' || (b.digit? c).isSome

/-- The value of the digits of an exponent. Digits after the fifth of a value say nothing
more than that it is large, and are passed over. -/
def exponentValue (cs : List Char) : Nat :=
  (cs.filterMap Base.decimal.digit?).foldl (fun e d => if e < 10000 then e * 10 + d else e) 0

/-- An exponent: an optional sign, a digit, and then digits and low lines to the
end of the text. -/
def exponent? (cs : List Char) : Option Int :=
  let (negative, digits) := splitSign cs
  match digits with
  | [] => none
  | c :: rest =>
      if isDigit c && rest.all fun d => isDigit d || d == '_' then
        let e : Int := exponentValue digits
        some (if negative then -e else e)
      else none

/-- The base that the first characters announce, and the rest after them. -/
def splitBase : List Char → Base × List Char
  | '0' :: x :: c :: cs =>
      if lower x == 'x' then (.hexadecimal, c :: cs) else (.decimal, '0' :: x :: c :: cs)
  | cs => (.decimal, cs)

/-- The parts of an unsigned number. There is at least one digit and at most one
point, and base sixteen asks for an exponent. -/
def written? (cs : List Char) : Option Written :=
  let (base, body) := splitBase cs
  let mantissa := body.takeWhile base.inMantissa
  if !mantissa.any (fun c => (base.digit? c).isSome) || 1 < mantissa.count '.' then none
  else
    match body.dropWhile base.inMantissa with
    | [] => if base = .decimal then some ⟨base, mantissa, none⟩ else none
    | c :: rest =>
        if lower c == base.exponentMark then
          (exponent? rest).map fun e => ⟨base, mantissa, some e⟩
        else none

/-- What stood before a character, as far as low lines care. -/
inductive Neighbour where
  | digit
  | lowLine
  | other
  deriving DecidableEq, Repr

/-- Whether every low line of `cs` stands between two digits. -/
def separates (b : Base) : Neighbour → List Char → Bool
  | before, [] => before != .lowLine
  | before, c :: cs =>
      if (b.digit? c).isSome then separates b .digit cs
      else if c == '_' then before == .digit && separates b .lowLine cs
      else before != .lowLine && separates b .other cs

/-- Whether the low lines of an unsigned number are well placed. The mark of base
sixteen counts as a digit. -/
def wellSeparated (cs : List Char) : Bool :=
  let (base, body) := splitBase cs
  separates base (if base = .hexadecimal then .digit else .other) body

/-- The double closest to `m * radix ^ e` for an exponent `e` of ten or of two;
`none` when it would be infinite. Numbers far outside the range of doubles are
told by their size alone, so that no large power is formed. -/
def scale (radix m : Nat) (e : Int) : Option Float :=
  let size : Int := (Nat.toDigits radix m).length + e
  if m = 0 || size < -1200 then some 0.0
  else if 1200 < size then none
  else Binary64.nearest (m * Nat.pow radix e.toNat) (Nat.pow radix (-e).toNat)

/-- The magnitude of a written number; `none` when no double is large enough. -/
def Written.magnitude? (w : Written) : Option Float :=
  let m := w.base.natOf w.mantissa
  let places : Int := (((w.mantissa.dropWhile (· != '.')).filter
    fun c => (w.base.digit? c).isSome).length : Nat)
  let e := w.exponent?.getD 0
  match w.base with
  | .decimal => scale 10 m (e - places)
  | .hexadecimal => scale 2 m (e - 4 * places)

/-- The words for infinity, with an optional sign, and for what is not a number,
without one. -/
def special? (cs : List Char) : Option Float :=
  let (negative, word) := splitSign (cs.map lower)
  if word == "inf".toList || word == "infinity".toList then
    some (if negative then -(1.0 / 0.0) else 1.0 / 0.0)
  else if cs.map lower == "nan".toList then some (0.0 / 0.0)
  else none

/-- The double that `cs` writes. Too large a number is no double, and too small a
one is zero. -/
def float? (cs : List Char) : Option Float :=
  special? cs <|>
    let (negative, body) := splitSign cs
    if body.contains '_' && !wellSeparated body then none
    else (written? body).bind fun w => w.magnitude?.map fun x => if negative then -x else x

end Scriptlet.Numeral
