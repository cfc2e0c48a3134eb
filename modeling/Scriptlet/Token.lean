/-!
# Tokens

A `Token` is a `Lexeme` with the place it was read from. The lexeme is all that
parsing looks at, so two sources with the same lexemes differ in positions only.
`Lexeme.quoted` is the form in which messages quote a lexeme.
-/

namespace Scriptlet

/-- A place in a source. Lines and columns count from one, and the offset, the
number of characters before the place, from zero. -/
structure Position where
  line : Nat
  column : Nat
  offset : Nat
  deriving DecidableEq, Repr, Inhabited

namespace Position

/-- The place of the first character. -/
def start : Position := ⟨1, 1, 0⟩

/-- The place after the character `c` at `p`. A line feed begins a new line. -/
def next (p : Position) (c : Char) : Position :=
  if c == '\n' then ⟨p.line + 1, 1, p.offset + 1⟩ else ⟨p.line, p.column + 1, p.offset + 1⟩

/-- The place after the characters `cs` at `p`. -/
def after (p : Position) (cs : List Char) : Position :=
  cs.foldl next p

/-- Line and column in brackets. -/
def text (p : Position) : String :=
  s!"[{p.line}:{p.column}]"

end Position

/-- The binary operators, assignments first. -/
inductive Operator where
  | set
  | addSet
  | subSet
  | mulSet
  | divSet
  | eq
  | ge
  | le
  | gt
  | lt
  | add
  | sub
  | rem
  | mul
  | div
  | and
  | or
  deriving DecidableEq, Repr

namespace Operator

/-- The spelling of an operator. -/
def symbol : Operator → String
  | set => "="
  | addSet => "+="
  | subSet => "-="
  | mulSet => "*="
  | divSet => "/="
  | eq => "=="
  | ge => ">="
  | le => "<="
  | gt => ">"
  | lt => "<"
  | add => "+"
  | sub => "-"
  | rem => "%"
  | mul => "*"
  | div => "/"
  | and => "AND"
  | or => "OR"

/-- Whether the operator writes to its left operand. -/
def isAssignment : Operator → Bool
  | set | addSet | subSet | mulSet | divSet => true
  | _ => false

/-- How tightly an operator binds. Operators of equal precedence group to the
left, assignments too. -/
def precedence : Operator → Nat
  | set | addSet | subSet | mulSet | divSet => 0
  | and | or => 1
  | eq | ge | le | gt | lt => 2
  | add | sub => 3
  | mul | div | rem => 4

end Operator

/-- The reserved words that are not operators. -/
inductive Keyword where
  | ifWord
  | whileWord
  | defWord
  | impWord
  | forWord
  | inWord
  | breakWord
  | continueWord
  | returnWord
  deriving DecidableEq, Repr

/-- The spelling of a reserved word. -/
def Keyword.word : Keyword → String
  | ifWord => "IF"
  | whileWord => "WHILE"
  | defWord => "DEF"
  | impWord => "IMP"
  | forWord => "FOR"
  | inWord => "IN"
  | breakWord => "BREAK"
  | continueWord => "CONTINUE"
  | returnWord => "RETURN"

/-- What a token says, without its place. Literals keep the word they were
spelled with, or the text between the quotes, beside their value. -/
inductive Lexeme where
  | string (text : String)
  | int (word : String) (value : Int64)
  | float (word : String) (value : Float)
  | bool (word : String) (value : Bool)
  | openParen
  | closeParen
  | openBrace
  | closeBrace
  | semicolon
  | comma
  | ref
  | op (o : Operator)
  | keyword (k : Keyword)
  | name (word : String)
  deriving Inhabited

namespace Lexeme

/-- The word or text of a lexeme, empty for symbols. -/
def payload : Lexeme → String
  | string text => text
  | int word _ | float word _ | bool word _ | name word => word
  | op .and => Operator.and.symbol
  | op .or => Operator.or.symbol
  | keyword k => k.word
  | _ => ""

/-- The form in which messages quote a lexeme. -/
def quoted : Lexeme → String
  | string text => s!"string({text})"
  | int word _ => s!"int({word})"
  | float word _ => s!"float({word})"
  | bool word _ => s!"bool({word})"
  | openParen => "("
  | closeParen => ")"
  | openBrace => "\x7b"
  | closeBrace => "\x7d"
  | semicolon => ";"
  | comma => ","
  | ref => "&"
  | op o => o.symbol
  | keyword k => k.word
  | name word => s!"var({word})"

/-- Whether the lexeme is a reserved word other than an operator. -/
def isKeyword : Lexeme → Bool
  | keyword _ => true
  | _ => false

end Lexeme

/-- The two kinds of brackets. Parentheses group operands and arguments, braces
hold blocks and array literals. -/
inductive Bracket where
  | paren
  | brace
  deriving DecidableEq, Repr

namespace Bracket

/-- The lexeme that opens a bracket. -/
def opening : Bracket → Lexeme
  | paren => .openParen
  | brace => .openBrace

/-- Whether the lexeme opens this kind of bracket. -/
def opens : Bracket → Lexeme → Bool
  | paren, .openParen => true
  | brace, .openBrace => true
  | _, _ => false

/-- Whether the lexeme closes this kind of bracket. -/
def closes : Bracket → Lexeme → Bool
  | paren, .closeParen => true
  | brace, .closeBrace => true
  | _, _ => false

end Bracket

/-- A lexeme with its place and the number of characters it takes up. -/
structure Token where
  lexeme : Lexeme
  pos : Position
  length : Nat
  deriving Inhabited

end Scriptlet
