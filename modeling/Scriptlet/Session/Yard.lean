import Scriptlet.Session.Basic
import Scriptlet.Value.Operation

/-!
# Sorting operators by precedence

The terms of an infix expression go through a `Yard` one by one, and come out in
the order in which operators find their operands before them. Waiting operators
are released by an operator that binds no tighter, by a closing parenthesis, and
at the end. The sorted entries are then run on a stack of operands.

An operand remembers the slot it was read from. The result of an operator takes
the place of its left operand and keeps that slot, so an assignment can write to
it.
-/

namespace Scriptlet

/-- A value on the way through an expression. -/
structure Operand where
  value : Value
  /-- The slot that an assignment writes to. -/
  source? : Option Slot

/-- An element of a sorted expression. -/
inductive Entry where
  | operand (o : Operand)
  | op (o : Operator) (pos : Position)

/-- What waits while an expression is sorted. -/
inductive Pending where
  | op (o : Operator) (pos : Position)
  | paren (pos : Position)

/-- The state of sorting. -/
structure Yard where
  /-- The entries sorted so far, the last first. -/
  output : List Entry
  /-- What waits, the latest first. -/
  pending : List Pending

namespace Yard

/-- Nothing has been sorted. -/
def empty : Yard := ⟨[], []⟩

/-- An operand leaves at once. -/
def operand (y : Yard) (o : Operand) : Yard :=
  { y with output := .operand o :: y.output }

/-- Releases the waiting operators that bind at least as tightly as `precedence`,
up to the next parenthesis. -/
def release (precedence : Nat) (output : List Entry) : List Pending → Yard
  | .op o pos :: pending =>
      if precedence ≤ o.precedence then release precedence (.op o pos :: output) pending
      else ⟨output, .op o pos :: pending⟩
  | pending => ⟨output, pending⟩

/-- An operator waits after it has released those before it. -/
def operator (y : Yard) (o : Operator) (pos : Position) : Yard :=
  let released := release o.precedence y.output y.pending
  { released with pending := .op o pos :: released.pending }

/-- An opening parenthesis waits for its partner. -/
def openParen (y : Yard) (pos : Position) : Yard :=
  { y with pending := .paren pos :: y.pending }

/-- A closing parenthesis releases what waits since its partner. -/
def closeParen (y : Yard) (pos : Position) : Except Error Yard :=
  let released := release 0 y.output y.pending
  match released.pending with
  | .paren _ :: pending => .ok { released with pending := pending }
  | _ => .error (Cause.unopened.located pos)

/-- The sorted entries, when no parenthesis is left waiting. -/
def finish (y : Yard) : Except Error (List Entry) :=
  let released := release 0 y.output y.pending
  match released.pending with
  | .paren pos :: _ => .error ((Cause.unclosed .paren).located pos)
  | _ => .ok released.output.reverse

end Yard

namespace Entry

/-- Applies an operator to its operands. An assignment writes the value to the slot
of the left operand, if it has one. -/
def applyTo (o : Operator) (pos : Position) (a b : Operand) : Exec Operand := do
  match o.apply a.value b.value with
  | .error cause => Exec.fail (cause.located pos)
  | .ok v =>
      if o.isAssignment then
        match a.source? with
        | some slot => Exec.write slot v
        | none => pure ()
      return { a with value := v }

/-- Runs sorted entries on a stack of operands, the topmost first. -/
def run : List Operand → List Entry → Exec (List Operand)
  | stack, [] => return stack
  | stack, .operand o :: entries => run (o :: stack) entries
  | b :: a :: stack, .op o pos :: entries => do
      let result ← applyTo o pos a b
      run (result :: stack) entries
  | _, .op o pos :: _ => Exec.fail ((Cause.missingOperand o).located pos)

/-- The value of a sorted expression, whose first token is at `pos`. -/
def evaluate (pos : Position) (entries : List Entry) : Exec Value := do
  match ← run [] entries with
  | [o] => return o.value
  | stack => Exec.fail ((Cause.leavesValues stack.length).located pos)

end Entry

end Scriptlet
