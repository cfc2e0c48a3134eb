import Scriptlet.Proofs.Environment
import Scriptlet.Session.Basic

/-!
# Programs without places

Two programs that differ in their layout only are the same up to the places that their
parts carry. `unplaced` sets every such place to the start of a source: of tokens, of
programs and all that holds programs, and of errors.
-/

namespace Scriptlet

/-- The token, put at the start of a source. -/
def Token.unplaced (t : Token) : Token :=
  { t with pos := .start }

/-- The error, put at the start of a source if it has a place. -/
def Error.unplaced (e : Error) : Error :=
  { e with pos? := e.pos?.map fun _ => .start }

/-- The failure with its error, if there is one, put at the start of a source. -/
def Failure.unplaced : Failure → Failure
  | .error e => .error e.unplaced
  | .wrapped outer e => .wrapped outer e.unplaced
  | other => other

mutual

/-- The terms without their places. -/
def unplacedTerms : List Term → List Term
  | [] => []
  | .literal v :: ts => .literal v :: unplacedTerms ts
  | .slot s :: ts => .slot s :: unplacedTerms ts
  | .call function name args _ :: ts =>
      .call function name (unplacedArguments args) .start :: unplacedTerms ts
  | .array items :: ts => .array (unplacedItems items) :: unplacedTerms ts
  | .op o _ :: ts => .op o .start :: unplacedTerms ts
  | .openParen _ :: ts => .openParen .start :: unplacedTerms ts
  | .closeParen _ :: ts => .closeParen .start :: unplacedTerms ts

/-- The expression without its places. -/
def Expr.unplaced : Expr → Expr
  | .mk terms _ => .mk (unplacedTerms terms) .start

/-- The elements of an array literal without their places. -/
def unplacedItems : List Expr → List Expr
  | [] => []
  | e :: es => e.unplaced :: unplacedItems es

/-- The argument without its places. -/
def Argument.unplaced : Argument → Argument
  | .cell s => .cell s
  | .literal v => .literal v
  | .expr e => .expr e.unplaced

/-- The arguments without their places. -/
def unplacedArguments : List Argument → List Argument
  | [] => []
  | a :: as => a.unplaced :: unplacedArguments as

end

mutual

/-- The statement without its places. -/
def Stmt.unplaced : Stmt → Stmt
  | .expr e => .expr e.unplaced
  | .cond test body => .cond test.unplaced (unplacedBlock body)
  | .loop label test body => .loop label test.unplaced (unplacedBlock body)
  | .each label vars items body => .each label vars items.unplaced (unplacedBlock body)
  | .breakLoop target => .breakLoop target
  | .continueLoop target => .continueLoop target
  | .returnNow => .returnNow

/-- The statements without their places. -/
def unplacedBlock : List Stmt → List Stmt
  | [] => []
  | s :: ss => s.unplaced :: unplacedBlock ss

end

theorem unplacedBlock_append (stmts stmts' : List Stmt) :
    unplacedBlock (stmts ++ stmts') = unplacedBlock stmts ++ unplacedBlock stmts' := by
  induction stmts with
  | nil => rfl
  | cons s ss ih => rw [List.cons_append, unplacedBlock, unplacedBlock, ih, List.cons_append]

/-- The body without its places. -/
def Body.unplaced : Body → Body
  | .script stmts => .script (unplacedBlock stmts)
  | .native run => .native run

/-- The function without the places in its body. -/
def Function.unplaced (f : Function) : Function :=
  { f with body := f.body.unplaced }

/-- The environment without the places in the bodies of its functions. -/
def Environment.unplaced (env : Environment) : Environment :=
  .ofLists env.globals (env.functions.map Function.unplaced)

/-- The session without the places in its code. -/
def Session.unplaced (s : Session) : Session :=
  { s with env := s.env.unplaced, program := unplacedBlock s.program }

end Scriptlet
