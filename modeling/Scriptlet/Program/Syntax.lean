import Scriptlet.Token
import Scriptlet.Value

/-!
# Parsed programs

Statements and expressions as parsing leaves them. Names are gone: each has
become a `Slot`, the storage it was resolved to, and keeps its spelling for
rendering only. An expression is still a list of infix terms, because grouping is
part of evaluating it. Places are kept exactly where an error may need one.

A loop carries a label, the number of loops of the same body around it, and
`BREAK` and `CONTINUE` name the label of the loop they were written in. Outside
of every loop they name none.
-/

namespace Scriptlet

/-- The storage that a name stands for. -/
inductive Slot where
  /-- The global at an index. -/
  | global (index : Nat) (name : String)
  /-- A parameter of the call in progress. -/
  | param (index : Nat) (name : String)
  /-- The result of the call in progress. -/
  | result (name : String)
  /-- The result of the last completed call of the function at an index. -/
  | last (function : Nat) (name : String)
  deriving DecidableEq, Repr

mutual

/-- An element of an infix expression. -/
inductive Term where
  | literal (v : Value)
  | slot (s : Slot)
  | call (function : Nat) (name : String) (args : List Argument) (pos : Position)
  | array (items : List Expr)
  | op (o : Operator) (pos : Position)
  | openParen (pos : Position)
  | closeParen (pos : Position)

/-- An infix expression with the place of its first token. -/
inductive Expr where
  | mk (terms : List Term) (pos : Position)

/-- An argument of a call. A name that stands alone passes its storage, so that
the function can write to it. -/
inductive Argument where
  | cell (s : Slot)
  | literal (v : Value)
  | expr (e : Expr)

end

/-- The terms of an expression. -/
def Expr.terms : Expr → List Term
  | mk terms _ => terms

/-- The place of the first token of an expression. -/
def Expr.pos : Expr → Position
  | mk _ pos => pos

/-- A statement. -/
inductive Stmt where
  | expr (e : Expr)
  | cond (test : Expr) (body : List Stmt)
  | loop (label : Nat) (test : Expr) (body : List Stmt)
  | each (label : Nat) (vars : List Slot) (items : Expr) (body : List Stmt)
  | breakLoop (target : Option Nat)
  | continueLoop (target : Option Nat)
  | returnNow

end Scriptlet
