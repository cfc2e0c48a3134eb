import Scriptlet.Program.Parser
import Scriptlet.Session.Evaluation
import Scriptlet.Token.Lexer

/-!
# What a host does with a session

The actions by which a host drives a session: it loads and runs programs,
evaluates expressions, reads and sets globals, provides functions and calls them.
A source is given by its characters; of octets these are the ones that they are
shown as, `Octets.toString`. A source that cannot be parsed leaves the session as
it was.
-/

namespace Scriptlet

namespace Session

/-- The value of a global, or the last result of a function. -/
def get? (s : Session) (name : String) : Option Value :=
  s.env.get? name

/-- The session with a global set. -/
def set (s : Session) (name : String) (v : Value) : Session :=
  { s with env := s.env.set name v }

/-- The names of the globals, in increasing order. -/
def names (s : Session) : List String :=
  s.env.names

/-- The globals with their values, in increasing order of the names. -/
def globals (s : Session) : List (String × Value) :=
  s.names.filterMap fun name => (s.get? name).map (name, ·)

/-- The session with a function provided by the host. A parameter written with a
leading ampersand is passed by reference. -/
def provide (s : Session) (name : String) (params : List String) (run : Native) : Session :=
  { s with env := s.env.provide name (params.map Param.ofString) run }

/-- A function that a host provides. -/
structure Provided where
  name : String
  params : List String
  native : Native

/-- The session with several functions provided, in their order. -/
def provideAll (s : Session) (fs : List Provided) : Session :=
  fs.foldl (fun s' f => s'.provide f.name f.params f.native) s

/-- The functions and the loaded program as text, a line for each function and
statement. -/
def tree (s : Session) : String :=
  String.join ((s.env.functions.map Function.render ++ Stmt.renderAll s.program).map (· ++ "\n"))

/-- What was printed, and the session without it. -/
def flush (s : Session) : Octets × Session :=
  (s.printed, { s with printed := "" })

end Session

namespace Exec

/-- Runs a parser on the declared names. When it fails, what it declared is undone. -/
def declaring {α : Type} (parser : Parser α) : Exec α := fun s =>
  match parser s.env with
  | .ok a env => .ok a { s with env := env }
  | .error failure env => .error failure { s with env := env.restore s.env.mark }

/-- The statements of a source, whose declarations take effect. -/
def parse (source : String) : Exec (List Stmt) := do
  let ts ← ofExcept (tokenize source).toExcept
  declaring (Parser.block .top ts)

/-- Adds the statements of a source to the program. -/
def load (source : String) : Exec Unit := do
  let stmts ← parse source
  modify fun s => { s with program := s.program ++ stmts }

/-- Runs statements outside of every function. -/
def runStmts (fuel : Nat) (stmts : List Stmt) : Exec Unit :=
  discard (execBlock (invoke fuel maxFrames) fuel stmts)

/-- Runs the loaded program. -/
def runProgram (fuel : Nat) : Exec Unit := do
  runStmts fuel (← get).program

/-- Runs a source without adding it to the program. -/
def exec (fuel : Nat) (source : String) : Exec Unit := do
  runStmts fuel (← parse source)

/-- Adds a source to the program and runs the whole of it. -/
def interpret (fuel : Nat) (source : String) : Exec Unit := do
  load source
  runProgram fuel

/-- The tokens without the semicolons at their end. -/
def dropSemicolons (ts : List Token) : List Token :=
  (ts.reverse.dropWhile fun t => match t.lexeme with
    | .semicolon => true
    | _ => false).reverse

/-- The expression that a source consists of. Its names are declared. -/
def parseExpr (source : String) : Exec Expr := do
  match dropSemicolons (← ofExcept (tokenize source).toExcept) with
  | [] => fail Cause.emptyExpression.nowhere
  | t :: ts =>
      match (← ofExcept (Extent.find true (t :: ts))).rest with
      | [] => declaring (Parser.expression .top (t :: ts))
      | found :: _ => fail ((Cause.tokenAfterExpression found.lexeme).located found.pos)

/-- The value of the expression that a source consists of. -/
def eval (fuel : Nat) (source : String) : Exec Value := do
  evalExpr (invoke fuel maxFrames) (← parseExpr source)

/-- Evaluates a line as an expression or, if it cannot be parsed as one, runs it as a
program. Only an expression has a value. -/
def evalLine (fuel : Nat) (source : String) : Exec (Option Value) :=
  tryCatch (some <$> eval fuel source) fun failure => do
    if failure.kind? = some .parse then
      exec fuel source
      return none
    else throw failure

/-- The arguments after a call: those passed by reference have the value that their
parameter was left with. -/
def argsAfter : List Param → List Value → List Value → List Value
  | p :: params, arg :: args, left :: lefts =>
      (if p.byRef then left else arg) :: argsAfter params args lefts
  | _, args, _ => args

/-- Calls a function. Gives its result, and the arguments as the call left them. -/
def call (fuel : Nat) (name : String) (args : List Value) : Exec (Value × List Value) := do
  match (← get).env.functionIndex? name with
  | none => fail (Cause.undeclaredFunction name).nowhere
  | some index =>
      let frame ← invoke fuel maxFrames index (args.map .value) none
      let params := ((← get).env.functions[index]?.map (·.params)).getD []
      return (frame.result, argsAfter params args frame.params)

end Exec

end Scriptlet
