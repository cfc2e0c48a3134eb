import Scriptlet.Program.Parser

/-!
# The forms of terms and statements

What parsing does with each form of a term and of a statement, one equation a form.
Proofs about parsing follow the recursion of `Parser.terms` and `Parser.block` and
rewrite by these equations, so that they do not depend on how the two functions tell
the forms apart.
-/

namespace Scriptlet

theorem Bracket.opens_brace_iff {l : Lexeme} : Bracket.brace.opens l = true ↔ l = .openBrace := by
  cases l <;> simp [opens]

theorem Bracket.closes_iff {b : Bracket} {l : Lexeme} :
    b.closes l = true ↔
      l = match b with
        | .paren => .closeParen
        | .brace => .closeBrace := by
  cases b <;> cases l <;> simp [closes]

theorem Extent.find_cons (operand : Bool) (t : Token) (ts : List Token) :
    find operand (t :: ts) =
      if ends t.lexeme then .ok ⟨[], t :: ts⟩
      else if Bracket.brace.opens t.lexeme then
        if !operand then .ok ⟨[], t :: ts⟩
        else
          match Bracket.brace.group? 0 ts with
          | none => .error ((Cause.unclosed .brace).located t.pos)
          | some g => (find false g.rest).map (prepend (t :: g.inner ++ [g.close]))
      else
        match callParen? t.lexeme ts with
        | some (paren, after) =>
            match Bracket.paren.group? 0 after with
            | none => .error ((Cause.unclosed .paren).located paren.pos)
            | some g => (find false g.rest).map (prepend (t :: paren :: g.inner ++ [g.close]))
        | none => (find (wantsOperand t.lexeme) ts).map (prepend [t]) := by
  rw [find]
  by_cases hends : ends t.lexeme
  · rw [if_pos hends, if_pos hends]
  · rw [if_neg hends, if_neg hends]
    by_cases hopens : Bracket.brace.opens t.lexeme
    · rw [if_pos hopens, if_pos hopens]
      by_cases hoperand : !operand
      · rw [if_pos hoperand, if_pos hoperand]
      · rw [if_neg hoperand, if_neg hoperand]
        split <;> rename_i hg <;> rw [hg]
    · rw [if_neg hopens, if_neg hopens]
      split
      · rename_i paren after hp
        rw [hp]
        dsimp only
        split <;> rename_i hg <;> rw [hg]
      · rename_i hp
        rw [hp]

namespace Parser

variable {scope : Scope} {operand : Bool} {t : Token} {ts : List Token}

/-! ### Terms -/

theorem terms_literal {v : Value} (h : literal? t.lexeme = some v) :
    terms scope operand (t :: ts) = (do
      let rest ← terms scope false ts
      return .literal v :: rest) := by
  rw [terms, h]

theorem terms_op {o : Operator} (h : t.lexeme = .op o) :
    terms scope operand (t :: ts) =
      match signed? o operand ts with
      | some (v, after) => do
          let rest ← terms scope false after
          return .literal v :: rest
      | none => do
          let rest ← terms scope true ts
          return .op o t.pos :: rest := by
  obtain ⟨lexeme, pos, length⟩ := t
  subst h
  rw [terms]
  dsimp only [literal?]
  split <;> rename_i hs <;> rw [hs]

theorem terms_name {word : String} (h : t.lexeme = .name word) :
    terms scope operand (t :: ts) =
      match Extent.callParen? t.lexeme ts with
      | some (paren, after) => do
          let function ← callee word t.pos
          match Bracket.paren.group? 0 after with
          | none => failAt (.unclosed .paren) paren.pos
          | some g => do
              let args ← arguments scope (splitCommas 0 g.inner)
              let rest ← terms scope false g.rest
              return .call function word args t.pos :: rest
      | none => do
          let slot ← resolve scope word
          let rest ← terms scope false ts
          return .slot slot :: rest := by
  obtain ⟨lexeme, pos, length⟩ := t
  subst h
  rw [terms]
  dsimp only [literal?]
  split
  · rename_i paren after hp
    rw [hp]
    dsimp only
    refine bind_congr fun function => ?_
    split <;> rename_i hg <;> rw [hg]
  · rename_i hp
    rw [hp]

theorem terms_openBrace (h : t.lexeme = .openBrace) :
    terms scope operand (t :: ts) =
      if operand then
        match Bracket.brace.group? 0 ts with
        | none => failAt (.unclosed .brace) t.pos
        | some g => do
            let items ← elements scope (splitCommas 0 g.inner)
            let rest ← terms scope false g.rest
            return .array items :: rest
      else failAt .braceInExpression t.pos := by
  obtain ⟨lexeme, pos, length⟩ := t
  subst h
  rw [terms]
  dsimp only [literal?]
  split
  · split <;> rename_i hg <;> rw [hg]
  · rfl

theorem terms_openParen (h : t.lexeme = .openParen) :
    terms scope operand (t :: ts) = (do
      let rest ← terms scope true ts
      return .openParen t.pos :: rest) := by
  obtain ⟨lexeme, pos, length⟩ := t
  subst h
  rw [terms]
  dsimp only [literal?]

theorem terms_closeParen (h : t.lexeme = .closeParen) :
    terms scope operand (t :: ts) = (do
      let rest ← terms scope false ts
      return .closeParen t.pos :: rest) := by
  obtain ⟨lexeme, pos, length⟩ := t
  subst h
  rw [terms]
  dsimp only [literal?]

/-- Any other lexeme is refused. -/
theorem terms_other (hliteral : literal? t.lexeme = none) (hop : ∀ o, t.lexeme ≠ .op o)
    (hname : ∀ word, t.lexeme ≠ .name word) (hbrace : t.lexeme ≠ .openBrace)
    (hopen : t.lexeme ≠ .openParen) (hclose : t.lexeme ≠ .closeParen) :
    terms scope operand (t :: ts) = failAt (.tokenInExpression t.lexeme) t.pos := by
  rw [terms, hliteral]
  dsimp only
  split <;> simp_all

theorem elements_skip (parts : List (List Token)) :
    elements scope ([] :: parts) = elements scope parts := by
  rw [elements]

theorem elements_cons (parts : List (List Token)) :
    elements scope ((t :: ts) :: parts) = (do
      let item ← terms scope true (t :: ts)
      let rest ← elements scope parts
      return .mk item t.pos :: rest) := by
  rw [elements]

theorem arguments_skip (parts : List (List Token)) :
    arguments scope ([] :: parts) = arguments scope parts := by
  rw [arguments]

theorem arguments_simple {simple : Parser Argument} (parts : List (List Token))
    (h : simpleArgument scope (t :: ts) = some simple) :
    arguments scope ((t :: ts) :: parts) = (do
      let arg ← simple
      let rest ← arguments scope parts
      return arg :: rest) := by
  rw [arguments, h]

theorem arguments_expr (parts : List (List Token))
    (h : simpleArgument scope (t :: ts) = none) :
    arguments scope ((t :: ts) :: parts) = (do
      let arg ← (fun made => Argument.expr (.mk made t.pos)) <$> terms scope true (t :: ts)
      let rest ← arguments scope parts
      return arg :: rest) := by
  rw [arguments, h]

/-! ### Statements -/

/-- The head of a statement, when what follows needs no more than its parts. -/
theorem headed_bind {α : Type} {after : Token} {last : Position} {next : Headed → Parser α} :
    (headed scope after last ts >>= fun h => next h.1) =
      (match takeExpression after ts with
      | .error e => throw (.error e)
      | .ok x => do
          let head ← expression scope x.inside
          match takeBlock last x.rest with
          | .error e => throw (.error e)
          | .ok g => next ⟨head, g.inner, g.rest⟩) := by
  unfold headed
  split
  · rename_i hx
    rw [hx]
    rfl
  · rename_i hx
    conv => rhs; rw [hx]
    rw [bind_assoc]
    refine bind_congr fun head => ?_
    split
    · rename_i hb
      conv => rhs; rw [hb]
      rfl
    · rename_i hb
      conv => rhs; rw [hb]
      rw [pure_bind]

@[simp]
theorem startsExpression_keyword (k : Keyword) : startsExpression (.keyword k) = false := rfl

@[simp]
theorem startsExpression_openBrace : startsExpression .openBrace = false := rfl

theorem block_expression (h : startsExpression t.lexeme = true) :
    block scope (t :: ts) =
      match takeExpression t (t :: ts) with
      | .error e => throw (.error e)
      | .ok x => do
          let e ← expression scope x.inside
          let rest ← block scope x.rest
          return .expr e :: rest := by
  rw [block, if_pos h]
  split <;> rename_i hx <;> rw [hx]

theorem block_semicolon (h : t.lexeme = .semicolon) :
    block scope (t :: ts) = block scope ts := by
  obtain ⟨lexeme, pos, length⟩ := t
  subst h
  rw [block]
  rfl

theorem block_comma (h : t.lexeme = .comma) : block scope (t :: ts) = block scope ts := by
  obtain ⟨lexeme, pos, length⟩ := t
  subst h
  rw [block]
  rfl

theorem block_def (h : t.lexeme = .keyword .defWord) :
    block scope (t :: ts) =
      (match expectName t ts with
      | .error e => throw (.error e)
      | .ok (name, pos, after) =>
          match parameters name (ts.getLastD t).pos false after with
          | .error e => throw (.error e)
          | .ok (params, rest) => do
              define name pos params
              block scope rest) := by
  obtain ⟨lexeme, pos, length⟩ := t
  subst h
  rw [block, if_neg (by simp)]
  dsimp only
  split <;> rename_i hn <;> rw [hn]
  dsimp only
  split <;> rename_i hp <;> rw [hp]

theorem block_imp (h : t.lexeme = .keyword .impWord) :
    block scope (t :: ts) =
      (match expectName t ts with
      | .error e => throw (.error e)
      | .ok (name, pos, after) => do
          let function ← implemented name pos
          match takeBlock (ts.getLastD t).pos after with
          | .error e => throw (.error e)
          | .ok g => do
              let body ← block (.body function) g.inner
              modify (·.modifyFunction function ({ · with body := .script body }))
              block scope g.rest) := by
  obtain ⟨lexeme, pos, length⟩ := t
  subst h
  rw [block, if_neg (by simp)]
  dsimp only
  split <;> rename_i hn <;> rw [hn]
  dsimp only
  refine bind_congr fun function => ?_
  split <;> rename_i hb <;> rw [hb]

theorem block_if (h : t.lexeme = .keyword .ifWord) :
    block scope (t :: ts) = (do
      let ⟨h, _⟩ ← headed scope t (ts.getLastD t).pos ts
      let body ← block scope h.body
      let rest ← block scope h.rest
      return .cond h.head body :: rest) := by
  obtain ⟨lexeme, pos, length⟩ := t
  subst h
  rw [block, if_neg (by simp)]

theorem block_while (h : t.lexeme = .keyword .whileWord) :
    block scope (t :: ts) = (do
      let ⟨h, _⟩ ← headed scope t (ts.getLastD t).pos ts
      let body ← block scope.inLoop h.body
      let rest ← block scope h.rest
      return .loop scope.nextLabel h.head body :: rest) := by
  obtain ⟨lexeme, pos, length⟩ := t
  subst h
  rw [block, if_neg (by simp)]

theorem block_for (h : t.lexeme = .keyword .forWord) :
    block scope (t :: ts) =
      match loopVariables (ts.getLastD t).pos ts with
      | .error e => throw (.error e)
      | .ok (names, after) => do
          let vars ← names.mapM (resolve scope)
          if vars.isEmpty then failAt .noLoopVariable t.pos
          let ⟨h, _⟩ ← headed scope t (ts.getLastD t).pos after
          let body ← block scope.inLoop h.body
          let rest ← block scope h.rest
          return .each scope.nextLabel vars h.head body :: rest := by
  obtain ⟨lexeme, pos, length⟩ := t
  subst h
  rw [block, if_neg (by simp)]
  dsimp only
  split <;> rename_i hv <;> rw [hv]

theorem block_return (h : t.lexeme = .keyword .returnWord) :
    block scope (t :: ts) = (do
      let rest ← block scope ts
      return .returnNow :: rest) := by
  obtain ⟨lexeme, pos, length⟩ := t
  subst h
  rw [block, if_neg (by simp)]

theorem block_break (h : t.lexeme = .keyword .breakWord) :
    block scope (t :: ts) = (do
      let rest ← block scope ts
      return .breakLoop scope.loop? :: rest) := by
  obtain ⟨lexeme, pos, length⟩ := t
  subst h
  rw [block, if_neg (by simp)]

theorem block_continue (h : t.lexeme = .keyword .continueWord) :
    block scope (t :: ts) = (do
      let rest ← block scope ts
      return .continueLoop scope.loop? :: rest) := by
  obtain ⟨lexeme, pos, length⟩ := t
  subst h
  rw [block, if_neg (by simp)]

theorem block_openBrace (h : t.lexeme = .openBrace) :
    block scope (t :: ts) =
      match takeBlock (ts.getLastD t).pos (t :: ts) with
      | .error e => throw (.error e)
      | .ok g => do
          let inner ← block scope g.inner
          let rest ← block scope g.rest
          return inner ++ rest := by
  obtain ⟨lexeme, pos, length⟩ := t
  subst h
  rw [block, if_neg (by simp)]
  dsimp only
  split <;> rename_i hb <;> rw [hb]

/-- Any other lexeme is refused. -/
theorem block_other (hstart : ¬startsExpression t.lexeme = true)
    (hsemicolon : t.lexeme ≠ .semicolon) (hcomma : t.lexeme ≠ .comma)
    (hdef : t.lexeme ≠ .keyword .defWord) (himp : t.lexeme ≠ .keyword .impWord)
    (hif : t.lexeme ≠ .keyword .ifWord) (hwhile : t.lexeme ≠ .keyword .whileWord)
    (hfor : t.lexeme ≠ .keyword .forWord) (hreturn : t.lexeme ≠ .keyword .returnWord)
    (hbreak : t.lexeme ≠ .keyword .breakWord) (hcontinue : t.lexeme ≠ .keyword .continueWord)
    (hbrace : t.lexeme ≠ .openBrace) :
    block scope (t :: ts) = failAt (.tokenAtStatement t.lexeme) t.pos := by
  rw [block, if_neg hstart]
  dsimp only
  split <;> simp_all

end Parser

end Scriptlet
