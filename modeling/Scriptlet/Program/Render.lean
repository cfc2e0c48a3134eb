import Scriptlet.Program.Syntax

/-!
# Programs as text

The text of a parsed program, on one line per statement. Slots show what a name
was resolved to.
-/

namespace Scriptlet

/-- The text of a slot. -/
def Slot.render : Slot → String
  | global _ name => s!"var({name})"
  | param _ name => s!"param({name})"
  | result name => s!"result({name})"
  | last _ name => s!"fn({name})"

/-- The text of a literal: strings stand in quotes, as they were written. -/
def Value.render : Value → String
  | string s => "\"" ++ s.toString ++ "\""
  | v => v.text.toString

mutual

/-- The text of a term. -/
def Term.render : Term → String
  | .literal v => v.render
  | .slot s => s.render
  | .call _ name args _ => name ++ "(" ++ ", ".intercalate (Argument.renderAll args) ++ ")"
  | .array items => "\x7b" ++ ", ".intercalate (Expr.renderAll items) ++ "\x7d"
  | .op o _ => o.symbol
  | .openParen _ => "("
  | .closeParen _ => ")"

/-- The texts of terms. -/
def Term.renderAll : List Term → List String
  | [] => []
  | t :: ts => t.render :: Term.renderAll ts

/-- The text of an expression, its terms with a blank between them. -/
def Expr.render : Expr → String
  | .mk terms _ => " ".intercalate (Term.renderAll terms)

/-- The texts of expressions. -/
def Expr.renderAll : List Expr → List String
  | [] => []
  | e :: es => e.render :: Expr.renderAll es

/-- The text of an argument. -/
def Argument.render : Argument → String
  | .cell s => s.render
  | .literal v => v.render
  | .expr e => e.render

/-- The texts of arguments. -/
def Argument.renderAll : List Argument → List String
  | [] => []
  | a :: as => a.render :: Argument.renderAll as

end

/-- A block of statements by their texts. -/
def renderBlock : List String → String
  | [] => "\x7b\x7d"
  | stmts => "\x7b " ++ " ".intercalate stmts ++ " \x7d"

mutual

/-- The text of a statement. -/
def Stmt.render : Stmt → String
  | .expr e => e.render ++ ";"
  | .cond test body => "IF " ++ test.render ++ " " ++ renderBlock (Stmt.renderAll body)
  | .loop _ test body => "WHILE " ++ test.render ++ " " ++ renderBlock (Stmt.renderAll body)
  | .each _ vars items body =>
      "FOR " ++ " ".intercalate (vars.map Slot.render) ++ " IN " ++ items.render ++ " " ++
        renderBlock (Stmt.renderAll body)
  | .breakLoop _ => "BREAK;"
  | .continueLoop _ => "CONTINUE;"
  | .returnNow => "RETURN;"

/-- The texts of statements. -/
def Stmt.renderAll : List Stmt → List String
  | [] => []
  | s :: ss => s.render :: Stmt.renderAll ss

end

end Scriptlet
