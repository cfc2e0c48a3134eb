import Scriptlet.Error
import Scriptlet.Program.Render

/-!
# Functions and calls

A `Function` has a name, parameters, a body and the result of its last completed
call. The body is a block of statements or a `Native`, an operation of the host
on the `Frame` of the call. A frame holds the parameters and the result while the
call is in progress.
-/

namespace Scriptlet

/-- A parameter. One that is passed by reference is copied back to the caller when
the call ends. -/
structure Param where
  name : String
  byRef : Bool
  deriving DecidableEq, Repr

namespace Param

/-- The parameter that a host declares: a leading ampersand asks for passing by
reference. -/
def ofString (s : String) : Param :=
  match s.toList with
  | '&' :: rest => ⟨String.ofList rest, true⟩
  | _ => ⟨s, false⟩

/-- The text of a parameter. -/
def render (p : Param) : String :=
  if p.byRef then "&" ++ p.name else p.name

/-- The parameter declared for an argument beyond the parameter list. -/
def extra (index : Nat) : Param :=
  ⟨s!"arg{index}", false⟩

end Param

/-- The cells of a call in progress. -/
structure Frame where
  /-- The name of the called function. -/
  function : String
  /-- The parameters, at least as many as there are arguments. -/
  params : List Value
  /-- The number of arguments that the caller gave. -/
  argCount : Nat
  result : Value
  /-- What the call has printed. -/
  printed : Octets

namespace Frame

/-- The frame at the start of a call: the parameters hold the arguments, further
parameters and the result hold zero. -/
def start (function : String) (paramCount : Nat) (args : List Value) : Frame where
  function := function
  params := args ++ List.replicate (paramCount - args.length) .zero
  argCount := args.length
  result := .zero
  printed := ""

/-- The parameter at an index. -/
def arg (f : Frame) (i : Nat) : Except Failure Value :=
  match f.params[i]? with
  | some v => .ok v
  | none => .error (.panic (.noArgument f.function i))

/-- The parameters for which the caller gave an argument. -/
def args (f : Frame) : List Value :=
  f.params.take f.argCount

/-- The frame with a parameter changed. -/
def setArg (f : Frame) (i : Nat) (v : Value) : Frame :=
  { f with params := f.params.set i v }

/-- The frame with the result changed. -/
def setResult (f : Frame) (v : Value) : Frame :=
  { f with result := v }

/-- The frame with the cells as a host function left them. Such a function changes what
the cells hold, not how many there are. -/
def adopt (f left : Frame) : Frame :=
  { f with
    params := f.params.mapIdx fun i v => left.params.getD i v
    result := left.result }

/-- The frame with a line printed. -/
def printLine (f : Frame) (line : Octets) : Frame :=
  { f with printed := f.printed ++ line ++ "\n" }

/-- The error that a host function reports, under the function's name. -/
def error (f : Frame) (detail : String) : Error :=
  (Cause.reported f.function detail).nowhere

/-- Fails with an error that is reported under the function's name. -/
def fail {α : Type} (f : Frame) (detail : String) : Except Failure α :=
  .error (.error (f.error detail))

/-- Fails unless the caller gave at least `n` arguments. -/
def require (f : Frame) (n : Nat) : Except Failure Unit :=
  if f.argCount < n then
    .error (.error (Cause.tooFewArguments f.function n f.argCount).nowhere)
  else .ok ()

end Frame

/-- An operation of the host as the body of a function. -/
abbrev Native := Frame → Except Failure Frame

/-- What a function does when it is called. -/
inductive Body where
  | script (stmts : List Stmt)
  | native (run : Native)

/-- A declared function. -/
structure Function where
  name : String
  params : List Param
  body : Body
  /-- The result of the last completed call. -/
  last : Value

namespace Function

/-- A function whose body is still to be given. -/
def declared (name : String) (params : List Param) : Function :=
  ⟨name, params, .script [], .zero⟩

/-- Whether the host provides the body. -/
def isNative (f : Function) : Bool :=
  match f.body with
  | .native _ => true
  | .script _ => false

/-- The function with its parameters and its body as they were recorded. -/
def restore (f recorded : Function) : Function :=
  { f with params := recorded.params, body := recorded.body }

/-- The index of the first parameter of a name. -/
def paramIndex? (f : Function) (name : String) : Option Nat :=
  f.params.findIdx? (·.name == name)

/-- The parameters, with one more for each argument beyond them. -/
def paramsFor (params : List Param) (argCount : Nat) : List Param :=
  params ++ (List.range' params.length (argCount - params.length)).map Param.extra

/-- The text of a function. -/
def render (f : Function) : String :=
  let head := " ".intercalate ("DEF" :: f.name :: f.params.map Param.render)
  match f.body with
  | .native _ => head ++ " <native>"
  | .script stmts => head ++ " " ++ renderBlock (Stmt.renderAll stmts)

end Function

end Scriptlet
