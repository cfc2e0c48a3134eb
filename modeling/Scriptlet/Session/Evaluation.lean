import Scriptlet.Session.Yard
import Scriptlet.Value.Elements

/-!
# Running programs

Expressions, statements and calls as actions on a session.

An expression first reads its variables, all at once. Then its terms are sorted
from left to right; calls and the elements of arrays are run as they are met.
Then the operators are applied. Statements report by a `Signal` whether the
program goes on after them, and a loop answers the signals that bear its label.

The recursion goes down the program, except in two places. A call goes on in
another body: it is bounded by `room`, how deep further calls may be nested, and
the limit on frames is met before the room is used up. A conditional loop may run
forever: it is given `fuel`, the number of rounds it may take, and fails when
they are used up.
-/

namespace Scriptlet

/-- An argument after evaluation: a cell that the function may write to, or a
value. -/
inductive Source where
  | cell (slot : Slot)
  | value (v : Value)

/-- The value of an argument. A cell is read when the call begins. -/
def Source.read : Source → Exec Value
  | cell slot => Exec.read slot
  | value v => pure v

/-- How a function is called: its index, the arguments, and the place of the call,
if it has one. The action gives the frame as the call left it. -/
abbrev Caller := Nat → List Source → Option Position → Exec Frame

/-- The slots that an expression reads, those of its calls and arrays apart. -/
def Term.slots (ts : List Term) : List Slot :=
  ts.filterMap fun t => match t with
    | .slot s => some s
    | _ => none

mutual

/-- Sorts terms from left to right. Variables have the value they had in `start`. -/
def sortTerms (call : Caller) (start : Session) (yard : Yard) : List Term → Exec Yard
  | [] => return yard
  | .literal v :: ts => sortTerms call start (yard.operand ⟨v, none⟩) ts
  | .slot s :: ts => do
      let v ← Exec.readIn start s
      sortTerms call start (yard.operand ⟨v, some s⟩) ts
  | .call function _ args pos :: ts => do
      let sources ← evalArguments call args
      let frame ← call function sources (some pos)
      sortTerms call start (yard.operand ⟨frame.result, none⟩) ts
  | .array items :: ts => do
      let vs ← evalItems call items
      sortTerms call start (yard.operand ⟨.array vs, none⟩) ts
  | .op o pos :: ts => sortTerms call start (yard.operator o pos) ts
  | .openParen pos :: ts => sortTerms call start (yard.openParen pos) ts
  | .closeParen pos :: ts => do
      let closed ← Exec.ofExcept (yard.closeParen pos)
      sortTerms call start closed ts

/-- The value of an expression. -/
def evalExpr (call : Caller) : Expr → Exec Value
  | .mk terms pos => do
      let start ← get
      (Term.slots terms).forM fun s => discard (Exec.readIn start s)
      let yard ← sortTerms call start .empty terms
      let entries ← Exec.ofExcept yard.finish
      Entry.evaluate pos entries

/-- The values of the elements of an array literal. -/
def evalItems (call : Caller) : List Expr → Exec (List Value)
  | [] => return []
  | e :: es => do
      let v ← evalExpr call e
      let vs ← evalItems call es
      return v :: vs

/-- The arguments of a call. -/
def evalArguments (call : Caller) : List Argument → Exec (List Source)
  | [] => return []
  | .cell slot :: as => do
      discard (Exec.read slot)
      let sources ← evalArguments call as
      return .cell slot :: sources
  | .literal v :: as => do
      let sources ← evalArguments call as
      return .value v :: sources
  | .expr e :: as => do
      let v ← evalExpr call e
      let sources ← evalArguments call as
      return .value v :: sources

end

/-- Whether a program goes on after a statement. -/
inductive Signal where
  | next
  | breakLoop (label : Nat)
  | continueLoop (label : Nat)
  | returnNow
  deriving DecidableEq, Repr

/-- What a loop makes of the signal of its body: `none` to go on with the next round,
else the signal after the loop. It answers the signals of its own label. -/
def Signal.afterRound (label : Nat) : Signal → Option Signal
  | next => none
  | continueLoop target => if target = label then none else some (continueLoop target)
  | breakLoop target => if target = label then some next else some (breakLoop target)
  | returnNow => some returnNow

/-- Repeats the body while the test holds, for at most `fuel` rounds. -/
def repeatWhile (label : Nat) (test : Exec Value) (body : Exec Signal) : Nat → Exec Signal
  | 0 => throw .outOfFuel
  | fuel + 1 => do
      if (← test).holds then
        match (← body).afterRound label with
        | none => repeatWhile label test body fuel
        | some signal => return signal
      else return .next

/-- Repeats the body for each of the values, after it is assigned. -/
def repeatEach (label : Nat) (assign : Value → Exec Unit) (body : Exec Signal) :
    List Value → Exec Signal
  | [] => return .next
  | v :: vs => do
      assign v
      match (← body).afterRound label with
      | none => repeatEach label assign body vs
      | some signal => return signal

mutual

/-- Runs a statement. -/
def execStmt (call : Caller) (fuel : Nat) : Stmt → Exec Signal
  | .expr e => do
      discard (evalExpr call e)
      return .next
  | .cond test body => do
      if (← evalExpr call test).holds then execBlock call fuel body else return .next
  | .loop label test body =>
      repeatWhile label (evalExpr call test) (execBlock call fuel body) fuel
  | .each label vars items body => do
      let v ← evalExpr call items
      repeatEach label (fun item => vars.forM (Exec.write · item)) (execBlock call fuel body)
        v.elements
  | .breakLoop none | .continueLoop none => return .next
  | .breakLoop (some label) => return .breakLoop label
  | .continueLoop (some label) => return .continueLoop label
  | .returnNow => return .returnNow

/-- Runs statements in their order, up to the first that does not let the program go
on. -/
def execBlock (call : Caller) (fuel : Nat) : List Stmt → Exec Signal
  | [] => return .next
  | s :: ss => do
      match ← execStmt call fuel s with
      | .next => execBlock call fuel ss
      | signal => return signal

end

/-- Runs the body of a function in the innermost frame. Every signal ends at the end
of the body. -/
def runBody (call : Caller) (fuel : Nat) (frame : Frame) : Body → Exec Unit
  | .script stmts => discard (execBlock call fuel stmts)
  | .native run =>
      match run frame with
      | .error e => throw e
      | .ok left =>
          modify fun s =>
            { s.modifyFrame (·.adopt left) with printed := s.printed ++ left.printed }

/-- Copies the parameters passed by reference back to the cells of the arguments, in
the order of the parameters. -/
def copyBack : List Param → List Source → List Value → Exec Unit
  | p :: params, source :: sources, v :: vs => do
      match source with
      | .cell slot => if p.byRef then Exec.write slot v
      | .value _ => pure ()
      copyBack params sources vs
  | _, _, _ => pure ()

/-- Calls a function, whose body is run by `run` in the frame of the call. The parameters
are extended to the number of arguments before anything else. -/
def callFunction (run : Frame → Body → Exec Unit) : Caller := fun index sources pos? => do
  match (← get).env.functions[index]? with
  | none => throw (.panic (.noFunction index))
  | some f => do
      let params := Function.paramsFor f.params sources.length
      modify (·.modifyFunction index ({ · with params := params }))
      let args ← sources.mapM Source.read
      let frame := Frame.start f.name params.length args
      let left ← Exec.withFrame frame pos? (run frame f.body)
      copyBack params sources left.params
      modify (·.modifyFunction index ({ · with last := left.result }))
      return left

/-- Calls a function. The calls that the body makes are run with one less of `room`, and
with none left the body is not run at all. -/
def invoke (fuel : Nat) : Nat → Caller
  | 0 => callFunction fun _ _ => throw .outOfFuel
  | below + 1 => callFunction fun frame body => runBody (invoke fuel below) fuel frame body

end Scriptlet
