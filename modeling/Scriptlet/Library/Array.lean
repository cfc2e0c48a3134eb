import Scriptlet.Session.Host

/-!
# Arrays

The functions that read and change arrays. Those that change one take it by
reference.
-/

namespace Scriptlet.Library

/-- The argument at a position, which must be an integer. -/
def index (f : Frame) (i : Nat) : Except Failure Int64 := do
  match ← f.arg i with
  | .int n => return n
  | v => f.fail s!"index must be int, got {v.kind.name}"

/-- The element at an index. -/
def get : Native := fun f => do
  f.require 2
  let i ← index f 1
  match (← f.arg 0).get? i.toInt with
  | some item => return f.setResult item
  | none => f.fail s!"index {i.toInt} out of range"

/-- Stores an element at an index. The result is the array. -/
def set : Native := fun f => do
  f.require 3
  let i ← index f 1
  match (← f.arg 0).setAt i.toInt (← f.arg 2) with
  | .ok v => return (f.setArg 0 v).setResult v
  | .error cause => throw (.error cause.nowhere)

/-- Adds an element at the end. The result is the new number of elements. -/
def push : Native := fun f => do
  f.require 2
  let v := (← f.arg 0).push (← f.arg 1)
  return (f.setArg 0 v).setResult (.int (Int64.ofNat v.size))

/-- The number of items that room can be asked for at once: eight octets for each, of two to
the power of forty-eight addresses. -/
def maxItems : Nat := Nat.pow 2 45

/-- The integers from zero up to a bound, which is left out. Room for all of them is asked
for before the first, whatever the bound. -/
def range : Native := fun f => do
  f.require 1
  let n := (← index f 0).toInt.toNat
  if maxItems < n then throw (.panic (.tooLong n))
  else return f.setResult (.array ((List.range n).map fun i => .int (Int64.ofNat i)))

/-- The functions of this module. -/
def array : List Session.Provided :=
  [⟨"get", ["array", "index"], get⟩,
    ⟨"set", ["&array", "index", "value"], set⟩,
    ⟨"push", ["&array", "value"], push⟩,
    ⟨"range", ["n"], range⟩]

end Scriptlet.Library
