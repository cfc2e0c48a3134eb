import Scriptlet.Octets
import Scriptlet.Text.Printable

/-!
# Quoted text

Strings in double quotes, in which everything is visible: printable characters
stand for themselves, the usual control characters have letters of their own,
and the rest is written by code point with as many digits as its plane needs. An
octet that is part of no character is written by its value.
-/

namespace Scriptlet.Text.Quoted

/-- The digits of `n` in base sixteen, filled up with zeros to `width`. -/
def hex (width n : Nat) : String :=
  let digits := Nat.toDigits 16 n
  String.ofList (List.replicate (width - digits.length) '0' ++ digits)

/-- The escape of a character that is not shown as itself. -/
def escape (c : Char) : String :=
  let n := c.toNat
  if n == 0x07 then "\\a"
  else if n == 0x08 then "\\b"
  else if n == 0x0c then "\\f"
  else if n == 0x0a then "\\n"
  else if n == 0x0d then "\\r"
  else if n == 0x09 then "\\t"
  else if n == 0x0b then "\\v"
  else if n < 0x20 || n == 0x7f then "\\x" ++ hex 2 n
  else if n < 0x10000 then "\\u" ++ hex 4 n
  else "\\U" ++ hex 8 n

/-- One character of quoted text. -/
def quoteChar (c : Char) : String :=
  if c == '"' || c == '\\' then "\\" ++ c.toString
  else if isPrintable c then c.toString
  else escape c

/-- One symbol of quoted text. -/
def quoteSymbol : Octets.Symbol → String
  | .char c => quoteChar c
  | .stray b => "\\x" ++ hex 2 b.toNat

/-- A string in double quotes. -/
def quote (o : Octets) : String :=
  "\"" ++ String.join (o.symbols.map quoteSymbol) ++ "\""

end Scriptlet.Text.Quoted
