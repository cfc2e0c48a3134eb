import Scriptlet.Program.Syntax

/-!
# Conditional loops in a program

A loop that repeats while a condition holds is the one form of statement that need not
come to an end. `Stmt.hasWhile` and `blockHasWhile` find it at any depth.
-/

namespace Scriptlet

mutual

/-- Whether a statement contains a conditional loop. -/
def Stmt.hasWhile : Stmt → Bool
  | .cond _ body => blockHasWhile body
  | .loop .. => true
  | .each _ _ _ body => blockHasWhile body
  | .expr _ | .breakLoop _ | .continueLoop _ | .returnNow => false

/-- Whether one of several statements contains a conditional loop. -/
def blockHasWhile : List Stmt → Bool
  | [] => false
  | s :: ss => s.hasWhile || blockHasWhile ss

end

theorem blockHasWhile_append (stmts stmts' : List Stmt) :
    blockHasWhile (stmts ++ stmts') = (blockHasWhile stmts || blockHasWhile stmts') := by
  induction stmts with
  | nil => rfl
  | cons s ss ih => rw [List.cons_append, blockHasWhile, blockHasWhile, ih, Bool.or_assoc]

end Scriptlet
