import Scriptlet.Environment
import Scriptlet.Program.Extent
import Scriptlet.Value.Arithmetic

/-!
# From tokens to programs

`Parser.block` turns tokens into statements. Names are resolved while parsing, in
the order in which they are met, and declarations take effect at once, so parsing
changes the environment as it goes. When it fails the environment stays as it was
at the failure; undoing what was declared until then is left to the caller.

The recursion goes into bracketed groups and on to the tokens after them, both of
which are shorter lists of tokens.
-/

namespace Scriptlet

/-- Parsing reads and changes the environment, and it may fail. -/
abbrev Parser := EStateM Failure Environment

/-- Where a piece of a program stands. -/
structure Scope where
  /-- The function whose body it is in. -/
  function? : Option Nat
  /-- The label of the innermost loop of the same body around it. -/
  loop? : Option Nat

namespace Scope

/-- Outside of every body and loop. -/
def top : Scope := ⟨none, none⟩

/-- In the body of a function. -/
def body (function : Nat) : Scope := ⟨some function, none⟩

/-- The label of a loop that stands here. -/
def nextLabel (s : Scope) : Nat :=
  match s.loop? with
  | none => 0
  | some label => label + 1

/-- In the loop that stands here. -/
def inLoop (s : Scope) : Scope :=
  { s with loop? := some s.nextLabel }

end Scope

namespace Parser

/-- The failure of a cause at a place. -/
def failAt {α : Type} (cause : Cause) (pos : Position) : Parser α :=
  throw (.error (cause.located pos))

/-- The storage of a name, which becomes a global if it is nothing else. -/
def resolve (scope : Scope) (name : String) : Parser Slot :=
  modifyGet (·.resolve scope.function? name)

/-- The function of a name that is called. -/
def callee (name : String) (pos : Position) : Parser Nat := do
  match (← get).functionIndex? name with
  | some i => return i
  | none => failAt (.undeclaredFunction name) pos

/-- The value of a literal. -/
def literal? : Lexeme → Option Value
  | .string s => some (.string s)
  | .int _ n => some (.int n)
  | .float _ x => some (.float x)
  | .bool _ b => some (.bool b)
  | _ => none

/-- The number literal that the tokens begin with, subtracted from zero, and the
tokens after it. -/
def negated? : List Token → Option (Value × List Token)
  | ⟨.int _ n, _, _⟩ :: ts => some (Value.zero.sub (.int n), ts)
  | ⟨.float _ x, _, _⟩ :: ts => some (Value.zero.sub (.float x), ts)
  | _ => none

theorem negated?_length {ts rest : List Token} {v : Value} (h : negated? ts = some (v, rest)) :
    rest.length < ts.length := by
  unfold negated? at h
  split at h <;> simp_all

/-- The number that an operator makes with the literal after it, when an operand is
due: only a minus sign does. -/
def signed? (o : Operator) (operand : Bool) (ts : List Token) : Option (Value × List Token) :=
  if o = .sub && operand then negated? ts else none

theorem signed?_length {o : Operator} {operand : Bool} {ts rest : List Token} {v : Value}
    (h : signed? o operand ts = some (v, rest)) : rest.length < ts.length := by
  unfold signed? at h
  split at h
  · exact negated?_length h
  · simp at h

/-- The argument that a single token makes, without an expression around it. -/
def simpleArgument (scope : Scope) (part : List Token) : Option (Parser Argument) :=
  match part with
  | [⟨.name word, _, _⟩] => some (Argument.cell <$> resolve scope word)
  | [t] => (literal? t.lexeme).map fun v => pure (Argument.literal v)
  | _ => none

mutual

/-- The terms of the tokens of an expression. `operand` says whether an operand is
due; there a minus sign joins the number after it. -/
def terms (scope : Scope) (operand : Bool) : List Token → Parser (List Term)
  | [] => return []
  | t :: ts => do
      match literal? t.lexeme with
      | some v => return .literal v :: (← terms scope false ts)
      | none =>
      match t.lexeme with
      | .op o =>
          match _h : signed? o operand ts with
          | some (v, rest) => return .literal v :: (← terms scope false rest)
          | none => return .op o t.pos :: (← terms scope true ts)
      | .name word =>
          match _hp : Extent.callParen? t.lexeme ts with
          | some (paren, after) =>
              let function ← callee word t.pos
              match _h : Bracket.paren.group? 0 after with
              | none => failAt (.unclosed .paren) paren.pos
              | some g =>
                  let args ← arguments scope (splitCommas 0 g.inner)
                  return .call function word args t.pos :: (← terms scope false g.rest)
          | none =>
              let slot ← resolve scope word
              return .slot slot :: (← terms scope false ts)
      | .openBrace =>
          if operand then
            match _h : Bracket.brace.group? 0 ts with
            | none => failAt (.unclosed .brace) t.pos
            | some g =>
                let items ← elements scope (splitCommas 0 g.inner)
                return .array items :: (← terms scope false g.rest)
          else failAt .braceInExpression t.pos
      | .openParen => return .openParen t.pos :: (← terms scope true ts)
      | .closeParen => return .closeParen t.pos :: (← terms scope false ts)
      | found => failAt (.tokenInExpression found) t.pos
termination_by ts => ts.length
decreasing_by
  · simp
  · have := signed?_length _h
    simp only [List.length_cons]
    omega
  · simp
  · have := Bracket.group?_length _h
    rw [partsSize_splitCommas, Extent.callParen?_eq _hp]
    simp only [List.length_cons]
    omega
  · have := Bracket.group?_length _h
    rw [Extent.callParen?_eq _hp]
    simp only [List.length_cons]
    omega
  · simp
  · have := Bracket.group?_length _h
    rw [partsSize_splitCommas]
    simp only [List.length_cons]
    omega
  · have := Bracket.group?_length _h
    simp only [List.length_cons]
    omega
  · simp
  · simp

/-- The elements of an array literal by their parts. Empty parts are passed
over. -/
def elements (scope : Scope) : List (List Token) → Parser (List Expr)
  | [] => return []
  | [] :: parts => elements scope parts
  | (t :: ts) :: parts => do
      let item ← terms scope true (t :: ts)
      return .mk item t.pos :: (← elements scope parts)
termination_by parts => partsSize parts
decreasing_by all_goals simp only [partsSize, List.length_cons, List.length_nil]; omega

/-- The arguments of a call by their parts. Empty parts are passed over. -/
def arguments (scope : Scope) : List (List Token) → Parser (List Argument)
  | [] => return []
  | [] :: parts => arguments scope parts
  | (t :: ts) :: parts => do
      let arg ← match simpleArgument scope (t :: ts) with
        | some simple => simple
        | none => (fun made => Argument.expr (.mk made t.pos)) <$> terms scope true (t :: ts)
      return arg :: (← arguments scope parts)
termination_by parts => partsSize parts
decreasing_by all_goals simp only [partsSize, List.length_cons, List.length_nil]; omega

end

theorem terms_nil {scope : Scope} {operand : Bool} : terms scope operand [] = pure [] := by
  rw [terms]

theorem elements_nil {scope : Scope} : elements scope [] = pure [] := by
  rw [elements]

theorem arguments_nil {scope : Scope} : arguments scope [] = pure [] := by
  rw [arguments]

/-- The expression that the tokens make, of which there must be at least one. -/
def expression (scope : Scope) : List Token → Parser Expr
  | [] => throw (.panic .noToken)
  | t :: ts => do
      return .mk (← terms scope true (t :: ts)) t.pos

/-- The name that must follow on the token `after`, its place, and the tokens after
it. -/
def expectName (after : Token) : List Token → Except Error (String × Position × List Token)
  | [] => .error ((Cause.unexpectedEnd .name).located after.pos)
  | t :: ts =>
      match t.lexeme with
      | .name word => .ok (word, t.pos, ts)
      | found => .error ((Cause.unexpectedToken found .name).located t.pos)

theorem expectName_length {after : Token} {ts rest : List Token} {word : String} {pos : Position}
    (h : expectName after ts = .ok (word, pos, rest)) : rest.length < ts.length := by
  cases ts with
  | nil => simp [expectName] at h
  | cons t ts =>
      simp only [expectName] at h
      split at h <;> simp_all

/-- The parameters up to the semicolon that ends a declaration, and the tokens
after it. An ampersand holds for the next name, also across commas. -/
def parameters (function : String) (last : Position) (byRef : Bool) :
    List Token → Except Error (List Param × List Token)
  | [] => .error ((Cause.unexpectedEnd (.endOfDef function)).located last)
  | t :: ts =>
      match t.lexeme with
      | .semicolon => .ok ([], ts)
      | .ref => parameters function last true ts
      | .comma => parameters function last byRef ts
      | .name word =>
          (parameters function last false ts).map fun (params, rest) =>
            (⟨word, byRef⟩ :: params, rest)
      | found => .error ((Cause.tokenInParameters found function).located t.pos)

theorem parameters_length {function : String} {last : Position} {byRef : Bool}
    {ts rest : List Token} {params : List Param}
    (h : parameters function last byRef ts = .ok (params, rest)) : rest.length < ts.length := by
  induction ts generalizing byRef params with
  | nil => simp [parameters] at h
  | cons t ts ih =>
      simp only [parameters] at h
      split at h
      · simp_all
      · exact Nat.lt_succ_of_lt (ih h)
      · exact Nat.lt_succ_of_lt (ih h)
      · obtain ⟨⟨params', rest'⟩, hp, heq⟩ := Extent.map_eq_ok h
        obtain ⟨rfl, rfl⟩ := Prod.mk.inj heq
        exact Nat.lt_succ_of_lt (ih hp)
      · simp at h

/-- The names up to the word that introduces the elements of a loop, and the tokens
after it. -/
def loopVariables (last : Position) : List Token → Except Error (List String × List Token)
  | [] => .error ((Cause.unexpectedEnd .inWord).located last)
  | t :: ts =>
      match t.lexeme with
      | .keyword .inWord => .ok ([], ts)
      | .comma => loopVariables last ts
      | .name word => (loopVariables last ts).map fun (names, rest) => (word :: names, rest)
      | found => .error ((Cause.tokenInLoopVariables found).located t.pos)

theorem loopVariables_length {last : Position} {ts rest : List Token} {names : List String}
    (h : loopVariables last ts = .ok (names, rest)) : rest.length < ts.length := by
  induction ts generalizing names with
  | nil => simp [loopVariables] at h
  | cons t ts ih =>
      simp only [loopVariables] at h
      split at h
      · simp_all
      · exact Nat.lt_succ_of_lt (ih h)
      · obtain ⟨⟨names', rest'⟩, hn, heq⟩ := Extent.map_eq_ok h
        obtain ⟨rfl, rfl⟩ := Prod.mk.inj heq
        exact Nat.lt_succ_of_lt (ih hn)
      · simp at h

/-- The expression and the block that make up the rest of a statement. -/
structure Headed where
  head : Expr
  body : List Token
  rest : List Token

/-- The expression and the block that follow on the word `after`. The expression is
parsed before the block is looked for, so its errors come first. -/
def headed (scope : Scope) (after : Token) (last : Position) (ts : List Token) :
    Parser { h : Headed // h.body.length < ts.length ∧ h.rest.length < ts.length } :=
  match hx : takeExpression after ts with
  | .error e => throw (.error e)
  | .ok x => do
      let head ← expression scope x.inside
      match hb : takeBlock last x.rest with
      | .error e => throw (.error e)
      | .ok g =>
          return ⟨⟨head, g.inner, g.rest⟩, by
            have := takeExpression_length hx
            have := takeBlock_length hb
            constructor <;> simp only <;> omega⟩

/-- The effect of a declaration on the environment. -/
def define (name : String) (pos : Position) (params : List Param) : Parser Unit := do
  match (← get).define name params with
  | .ok env => set env
  | .error cause => failAt cause pos

/-- The function that a body is given for. -/
def implemented (name : String) (pos : Position) : Parser Nat := do
  match (← get).functionIndex? name with
  | some i => return i
  | none => failAt (.bodyOfUndeclared name) pos

/-- Whether an expression statement may begin with the lexeme. -/
def startsExpression : Lexeme → Bool
  | .name _ | .string _ | .int .. | .float .. | .bool .. | .openParen | .op .sub => true
  | _ => false

/-- The statements of a block. -/
def block (scope : Scope) : List Token → Parser (List Stmt)
  | [] => return []
  | t :: ts => do
      let last := (ts.getLastD t).pos
      if startsExpression t.lexeme then
        match _h : takeExpression t (t :: ts) with
        | .error e => throw (.error e)
        | .ok x =>
            let e ← expression scope x.inside
            return .expr e :: (← block scope x.rest)
      else
      match t.lexeme with
      | .semicolon | .comma => block scope ts
      | .keyword .defWord =>
          match _h : expectName t ts with
          | .error e => throw (.error e)
          | .ok (name, pos, after) =>
              match _hp : parameters name last false after with
              | .error e => throw (.error e)
              | .ok (params, rest) =>
                  define name pos params
                  block scope rest
      | .keyword .impWord =>
          match _h : expectName t ts with
          | .error e => throw (.error e)
          | .ok (name, pos, after) =>
              let function ← implemented name pos
              match _hb : takeBlock last after with
              | .error e => throw (.error e)
              | .ok g =>
                  let body ← block (.body function) g.inner
                  modify (·.modifyFunction function ({ · with body := .script body }))
                  block scope g.rest
      | .keyword .ifWord =>
          let ⟨h, _hlen⟩ ← headed scope t last ts
          let body ← block scope h.body
          return .cond h.head body :: (← block scope h.rest)
      | .keyword .whileWord =>
          let ⟨h, _hlen⟩ ← headed scope t last ts
          let body ← block scope.inLoop h.body
          return .loop scope.nextLabel h.head body :: (← block scope h.rest)
      | .keyword .forWord =>
          match _h : loopVariables last ts with
          | .error e => throw (.error e)
          | .ok (names, after) =>
              let vars ← names.mapM (resolve scope)
              if vars.isEmpty then failAt .noLoopVariable t.pos
              let ⟨h, _hlen⟩ ← headed scope t last after
              let body ← block scope.inLoop h.body
              return .each scope.nextLabel vars h.head body :: (← block scope h.rest)
      | .keyword .returnWord => return .returnNow :: (← block scope ts)
      | .keyword .breakWord => return .breakLoop scope.loop? :: (← block scope ts)
      | .keyword .continueWord => return .continueLoop scope.loop? :: (← block scope ts)
      | .openBrace =>
          match _h : takeBlock last (t :: ts) with
          | .error e => throw (.error e)
          | .ok g => return (← block scope g.inner) ++ (← block scope g.rest)
      | found => failAt (.tokenAtStatement found) t.pos
termination_by ts => ts.length
decreasing_by
  · exact takeExpression_length _h
  · simp
  · have := expectName_length _h
    have := parameters_length _hp
    simp only [List.length_cons]
    omega
  · have := expectName_length _h
    have := takeBlock_length _hb
    simp only [List.length_cons]
    omega
  · have := expectName_length _h
    have := takeBlock_length _hb
    simp only [List.length_cons]
    omega
  · exact Nat.lt_succ_of_lt _hlen.1
  · exact Nat.lt_succ_of_lt _hlen.2
  · exact Nat.lt_succ_of_lt _hlen.1
  · exact Nat.lt_succ_of_lt _hlen.2
  · exact Nat.lt_succ_of_lt (Nat.lt_trans _hlen.1 (loopVariables_length _h))
  · exact Nat.lt_succ_of_lt (Nat.lt_trans _hlen.2 (loopVariables_length _h))
  · simp
  · simp
  · simp
  · have := takeBlock_length _h
    omega
  · have := takeBlock_length _h
    omega

theorem block_nil {scope : Scope} : block scope [] = pure [] := by
  rw [block]

end Parser

end Scriptlet
