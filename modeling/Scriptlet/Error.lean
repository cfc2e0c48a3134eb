import Scriptlet.Token

/-!
# Errors

A `Cause` says what went wrong, an `Error` adds the place, and `Error.message`
is the text that users see. The wording of all causes is in `Cause.reason`, and
`Cause.kind` sorts them by the stage that failed.

A `Failure` is how an action of a session ends when it does not succeed. Besides
errors it covers what a host function may report on its own, a `Panic`, which is
an access to something that is not there or a request for more memory than there
can be, and the exhaustion of the bound on loops.
-/

namespace Scriptlet

/-- The stage that an error belongs to. -/
inductive ErrorKind where
  | lex
  | parse
  | mismatchedParentheses
  | invalidExpression
  | undefinedReference
  | divisionByZero
  | runtime
  deriving DecidableEq, Repr

/-- The name of a kind, with which its messages begin. -/
def ErrorKind.name : ErrorKind → String
  | lex => "Lex error"
  | parse => "Parse error"
  | mismatchedParentheses => "Mismatched parentheses"
  | invalidExpression => "Invalid expression"
  | undefinedReference => "Undefined reference"
  | divisionByZero => "Division by zero"
  | runtime => "Runtime error"

/-- What a statement asked for where it was not found. -/
inductive Expected where
  | name
  | block
  | inWord
  | endOfDef (function : String)
  deriving DecidableEq, Repr

/-- The form in which messages quote what was asked for. -/
def Expected.quoted : Expected → String
  | name => "var()"
  | block => "\x7b"
  | inWord => "IN"
  | endOfDef f => s!"; after DEF {f}"

/-- What went wrong. -/
inductive Cause where
  /-- A string literal has no closing quote. -/
  | unterminatedString
  /-- The source ends inside a statement. -/
  | unexpectedEnd (expected : Expected)
  /-- A statement goes on with another token than it must. -/
  | unexpectedToken (found : Lexeme) (expected : Expected)
  /-- An opening bracket has no partner. -/
  | unclosed (b : Bracket)
  /-- A closing parenthesis has no partner. -/
  | unopened
  /-- A statement has no expression where it needs one. -/
  | noExpression (after : Lexeme)
  /-- An expression runs into a reserved word. -/
  | keywordInExpression (k : Lexeme)
  /-- An array literal stands where an operator belongs. -/
  | braceInExpression
  /-- A token that no expression contains. -/
  | tokenInExpression (found : Lexeme)
  /-- A token that no parameter list contains. -/
  | tokenInParameters (found : Lexeme) (function : String)
  /-- A token that cannot name a loop variable. -/
  | tokenInLoopVariables (found : Lexeme)
  /-- A loop over elements names no variable. -/
  | noLoopVariable
  /-- A token that no statement begins with. -/
  | tokenAtStatement (found : Lexeme)
  /-- A function of the program is declared a second time. -/
  | alreadyDeclared (function : String)
  /-- A body is given for a function that was never declared. -/
  | bodyOfUndeclared (function : String)
  /-- There is nothing to evaluate. -/
  | emptyExpression
  /-- Tokens are left over after the expression to evaluate. -/
  | tokenAfterExpression (found : Lexeme)
  /-- An operator finds fewer than two operands. -/
  | missingOperand (o : Operator)
  /-- An expression does not come to one value. -/
  | leavesValues (count : Nat)
  /-- A function is called that was never declared. -/
  | undeclaredFunction (function : String)
  /-- An integer is divided by zero. -/
  | zeroDivisor
  /-- A remainder by the integer zero is asked for. -/
  | zeroModulus
  /-- An element is stored at a negative index. -/
  | negativeIndex (index : Int)
  /-- More calls are in progress than are allowed. -/
  | callDepth (function : String)
  /-- A host function was given too few arguments. -/
  | tooFewArguments (function : String) (required given : Nat)
  /-- A host function reports an error of its own. -/
  | reported (function : String) (detail : String)
  /-- Data of the host has no counterpart among the values. -/
  | inconvertible (typeName : String)

namespace Cause

/-- The stage that a cause belongs to. -/
def kind : Cause → ErrorKind
  | unterminatedString => .lex
  | unclosed .paren | unopened => .mismatchedParentheses
  | missingOperand _ | leavesValues _ => .invalidExpression
  | undeclaredFunction _ => .undefinedReference
  | zeroDivisor | zeroModulus => .divisionByZero
  | negativeIndex _ | callDepth _ | tooFewArguments .. | reported .. | inconvertible _ => .runtime
  | _ => .parse

/-- The wording of a cause. -/
def reason : Cause → String
  | unterminatedString => "unterminated string literal"
  | unexpectedEnd expected => s!"unexpected end of input, expected {expected.quoted}"
  | unexpectedToken found expected =>
      s!"unexpected token {found.quoted}, expected {expected.quoted}"
  | unclosed b => s!"unclosed {b.opening.quoted}"
  | unopened => "unexpected )"
  | noExpression after => s!"expected expression after {after.quoted}"
  | keywordInExpression k => s!"unexpected keyword {k.quoted} in expression"
  | braceInExpression => "unexpected \x7b in expression"
  | tokenInExpression found => s!"unexpected token {found.quoted} in expression"
  | tokenInParameters found f =>
      s!"unexpected token {found.quoted} in parameter list of {f}"
  | tokenInLoopVariables found => s!"unexpected token {found.quoted} in FOR variables"
  | noLoopVariable => "FOR needs at least one variable"
  | tokenAtStatement found => s!"unexpected token {found.quoted} at start of statement"
  | alreadyDeclared f => s!"function {f} is already declared"
  | bodyOfUndeclared f => s!"IMP of undeclared function {f}"
  | emptyExpression => "empty expression"
  | tokenAfterExpression found => s!"unexpected token {found.quoted} after expression"
  | missingOperand o => s!"operator {o.symbol} is missing an operand"
  | leavesValues n => s!"expression leaves {n} values"
  | undeclaredFunction f => s!"{f} is not a declared function"
  | zeroDivisor => "integer division by zero"
  | zeroModulus => "integer remainder by zero"
  | negativeIndex i => s!"negative array index {i}"
  | callDepth f => s!"call stack overflow in {f}"
  | tooFewArguments f required given => s!"{f} requires {required} arguments, got {given}"
  | reported f detail => s!"{f}: {detail}"
  | inconvertible t => s!"cannot convert {t} to a value"

end Cause

/-- What went wrong, and where, if it has a place in a source. -/
structure Error where
  cause : Cause
  pos? : Option Position

namespace Error

/-- The text of an error. -/
def message (e : Error) : String :=
  match e.pos? with
  | none => s!"{e.cause.kind.name}: {e.cause.reason}"
  | some p => s!"{e.cause.kind.name} at {p.text}: {e.cause.reason}"

end Error

/-- The error of a cause at a place. -/
def Cause.located (c : Cause) (p : Position) : Error :=
  ⟨c, some p⟩

/-- The error of a cause without a place. -/
def Cause.nowhere (c : Cause) : Error :=
  ⟨c, none⟩

/-- An access to something that is not there, or a request for more memory than there can
be. Nothing can follow on it. -/
inductive Panic where
  /-- No global has the index. -/
  | noGlobal (index : Nat)
  /-- No function has the index. -/
  | noFunction (index : Nat)
  /-- A parameter or a result is used while no call is in progress. -/
  | noCall (name : String)
  /-- The call in progress has no parameter of the index. -/
  | noParam (function : String) (index : Nat)
  /-- A host function asks for a parameter that its call does not have. -/
  | noArgument (function : String) (index : Nat)
  /-- A call ends while none is in progress. -/
  | noFrame
  /-- An expression is made of no tokens. -/
  | noToken
  /-- Room is asked for more items at once than there are addresses. -/
  | tooLong (length : Nat)
  deriving DecidableEq, Repr

/-- How an action ends when it does not succeed. -/
inductive Failure where
  /-- An error of the language. -/
  | error (e : Error)
  /-- An error of the language to which a host put a text of its own. -/
  | wrapped (outer : String) (e : Error)
  /-- An error that a host function reported in its own words. -/
  | foreign (text : String)
  /-- An access to something that is not there, or a request for too much memory. -/
  | panic (p : Panic)
  /-- A loop ran longer than its bound. -/
  | outOfFuel

namespace Failure

/-- The kind of the language's error inside a failure, if there is one. -/
def kind? : Failure → Option ErrorKind
  | error e => some e.cause.kind
  | wrapped _ e => some e.cause.kind
  | _ => none

/-- The text of a failure. The outer text of a wrapped error stands in front. -/
def message : Failure → String
  | error e => e.message
  | wrapped outer e => outer ++ e.message
  | foreign text => text
  | panic (.tooLong _) => "request for too much memory"
  | panic _ => "access to something that is not there"
  | outOfFuel => "loop bound exhausted"

end Failure

end Scriptlet
