import Scriptlet.Number.Numeral
import Scriptlet.Session.Host
import Scriptlet.Text.Blank
import Scriptlet.Text.Grapheme
import Scriptlet.Text.Quoted

/-!
# Printing and conversion

The functions that print values, turn them into text and numbers, and measure
them. The length of a text is the number of characters that a reader sees.
-/

namespace Scriptlet.Library

/-- Fails because the function has no meaning for a kind of value. -/
def unsupported {α : Type} (f : Frame) (v : Value) : Except Failure α :=
  f.fail s!"does not support type {v.kind.name}"

/-- Prints the texts of all arguments on one line. -/
def print : Native := fun f =>
  .ok (f.printLine (Octets.intercalate " " (f.args.map Value.text)))

/-- The text of a value. -/
def str : Native := fun f => do
  f.require 1
  return f.setResult (.string (← f.arg 0).text)

/-- The integer of a number, truth value or text. A text may also write a double,
which is then rounded toward zero. -/
def int : Native := fun f => do
  f.require 1
  match ← f.arg 0 with
  | .int n => return f.setResult (.int n)
  | .float x => return f.setResult (.int (Value.truncate x))
  | .bool b => return f.setResult (.int (if b then 1 else 0))
  | .string s =>
      let word := Text.trim s.chars
      match Numeral.int? word, Numeral.float? word with
      | some n, _ => return f.setResult (.int n)
      | none, some x => return f.setResult (.int (Value.truncate x))
      | none, none => f.fail s!"cannot convert {Text.Quoted.quote s} to int"
  | v => unsupported f v

/-- The double of a number, truth value or text. -/
def float : Native := fun f => do
  f.require 1
  match ← f.arg 0 with
  | .int n => return f.setResult (.float n.toFloat)
  | .float x => return f.setResult (.float x)
  | .bool b => return f.setResult (.float (if b then 1 else 0))
  | .string s =>
      match Numeral.float? (Text.trim s.chars) with
      | some x => return f.setResult (.float x)
      | none => f.fail s!"cannot convert {Text.Quoted.quote s} to float"
  | v => unsupported f v

/-- The name of the kind of a value. -/
def type : Native := fun f => do
  f.require 1
  return f.setResult (.string (← f.arg 0).kind.name)

/-- The number of characters of a text or of elements of an array; other values have
none. -/
def len : Native := fun f => do
  f.require 1
  let length := match ← f.arg 0 with
    | .string s => Text.Grapheme.count s.chars
    | v => v.size
  return f.setResult (.int (Int64.ofNat length))

/-- The functions of this module. -/
def conversion : List Session.Provided :=
  [⟨"print", [], print⟩,
    ⟨"str", ["x"], str⟩,
    ⟨"int", ["x"], int⟩,
    ⟨"float", ["x"], float⟩,
    ⟨"type", ["x"], type⟩,
    ⟨"len", ["x"], len⟩]

end Scriptlet.Library
