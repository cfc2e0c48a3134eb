import Scriptlet.Program.Syntax

/-!
# What a program mentions

The cells and functions that occur in a program, at any depth, as a list of
`Reference`s. It is all that running the program can get hold of, and all that parsing
has to get right.
-/

namespace Scriptlet

/-- A cell or a function that a program mentions. -/
inductive Reference where
  | cell (s : Slot)
  | function (index : Nat)

mutual

/-- What terms mention. -/
def termReferences : List Term → List Reference
  | [] => []
  | .literal _ :: ts => termReferences ts
  | .slot s :: ts => .cell s :: termReferences ts
  | .call function _ args _ :: ts =>
      .function function :: (argumentReferences args ++ termReferences ts)
  | .array items :: ts => itemReferences items ++ termReferences ts
  | .op _ _ :: ts => termReferences ts
  | .openParen _ :: ts => termReferences ts
  | .closeParen _ :: ts => termReferences ts

/-- What an expression mentions. -/
def Expr.references : Expr → List Reference
  | .mk terms _ => termReferences terms

/-- What the elements of an array literal mention. -/
def itemReferences : List Expr → List Reference
  | [] => []
  | e :: es => e.references ++ itemReferences es

/-- What arguments mention. -/
def argumentReferences : List Argument → List Reference
  | [] => []
  | .cell s :: as => .cell s :: argumentReferences as
  | .literal _ :: as => argumentReferences as
  | .expr e :: as => e.references ++ argumentReferences as

end

mutual

/-- What a statement mentions. -/
def Stmt.references : Stmt → List Reference
  | .expr e => e.references
  | .cond test body => test.references ++ blockReferences body
  | .loop _ test body => test.references ++ blockReferences body
  | .each _ vars items body => vars.map .cell ++ (items.references ++ blockReferences body)
  | .breakLoop _ => []
  | .continueLoop _ => []
  | .returnNow => []

/-- What the statements of a block mention. -/
def blockReferences : List Stmt → List Reference
  | [] => []
  | s :: ss => s.references ++ blockReferences ss

end

end Scriptlet
