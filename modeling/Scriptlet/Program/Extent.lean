import Scriptlet.Error
import Scriptlet.Program.Brackets

/-!
# The extent of an expression

How far an expression reaches into the tokens after its start. It ends before a
semicolon, a comma, a closing brace or a reserved word outside of its brackets,
and before an opening brace where no operand is due, because there a block begins
and not an array literal. `Extent.find` cuts the tokens at that point; it changes
none of them.
-/

namespace Scriptlet

/-- The tokens of an expression, and those after it. -/
structure Extent where
  inside : List Token
  rest : List Token

namespace Extent

/-- More tokens in front of the expression. -/
def prepend (ts : List Token) (e : Extent) : Extent :=
  { e with inside := ts ++ e.inside }

/-- Whether the lexeme ends an expression wherever it stands outside of
brackets. -/
def ends : Lexeme → Bool
  | .semicolon | .comma | .closeBrace | .keyword _ => true
  | _ => false

/-- Whether an operand is due after the lexeme. -/
def wantsOperand : Lexeme → Bool
  | .op _ | .openParen => true
  | _ => false

/-- The bracket that opens a call when it follows directly on a name. -/
def callParen? : Lexeme → List Token → Option (Token × List Token)
  | .name _, ⟨.openParen, pos, length⟩ :: ts => some (⟨.openParen, pos, length⟩, ts)
  | _, _ => none

theorem callParen?_eq {l : Lexeme} {ts rest : List Token} {t : Token}
    (h : callParen? l ts = some (t, rest)) : ts = t :: rest := by
  unfold callParen? at h
  split at h
  · simp only [Option.some.injEq, Prod.mk.injEq] at h
    rw [← h.1, ← h.2]
  · simp at h

/-- The extent of the expression that the tokens begin with. `operand` says
whether an operand is due. -/
def find (operand : Bool) : List Token → Except Error Extent
  | [] => .ok ⟨[], []⟩
  | t :: ts =>
      if ends t.lexeme then .ok ⟨[], t :: ts⟩
      else if Bracket.brace.opens t.lexeme then
        if !operand then .ok ⟨[], t :: ts⟩
        else
          match _h : Bracket.brace.group? 0 ts with
          | none => .error ((Cause.unclosed .brace).located t.pos)
          | some g => (find false g.rest).map (prepend (t :: g.inner ++ [g.close]))
      else
        match _hp : callParen? t.lexeme ts with
        | some (paren, after) =>
            match _h : Bracket.paren.group? 0 after with
            | none => .error ((Cause.unclosed .paren).located paren.pos)
            | some g => (find false g.rest).map (prepend (t :: paren :: g.inner ++ [g.close]))
        | none => (find (wantsOperand t.lexeme) ts).map (prepend [t])
termination_by ts => ts.length
decreasing_by
  · have := Bracket.group?_length _h
    simp only [List.length_cons]
    omega
  · have := Bracket.group?_length _h
    rw [callParen?_eq _hp]
    simp only [List.length_cons]
    omega
  · simp

theorem map_eq_ok {ε α β : Type} {f : α → β} {x : Except ε α} {b : β} (h : x.map f = .ok b) :
    ∃ a, x = .ok a ∧ f a = b := by
  cases x with
  | error e => simp [Except.map] at h
  | ok a => exact ⟨a, rfl, by simpa [Except.map] using h⟩

/-- Cutting at the extent of an expression keeps all tokens in their order. -/
theorem append_find (operand : Bool) (ts : List Token) (e : Extent)
    (h : find operand ts = .ok e) : e.inside ++ e.rest = ts := by
  fun_induction find operand ts generalizing e with
  | case1 =>
      simp only [Except.ok.injEq] at h
      subst h
      rfl
  | case2 => simp_all; subst h; rfl
  | case3 => simp_all; subst h; rfl
  | case4 => simp at h
  | case5 operand t ts _ _ _ g hg ih =>
      obtain ⟨e', he, rfl⟩ := map_eq_ok h
      simp [prepend, ih e' he, Bracket.group?_append hg]
  | case6 => simp at h
  | case7 operand t ts _ _ paren after hp g hg ih =>
      obtain ⟨e', he, rfl⟩ := map_eq_ok h
      simp [prepend, ih e' he, callParen?_eq hp, Bracket.group?_append hg]
  | case8 operand t ts _ _ _ ih =>
      obtain ⟨e', he, rfl⟩ := map_eq_ok h
      simp [prepend, ih e' he]

end Extent

/-- The expression that a statement needs next, when the tokens follow on `after`.
It may not be empty, and it may not run into a reserved word. -/
def takeExpression (after : Token) (ts : List Token) : Except Error Extent :=
  match Extent.find true ts with
  | .error e => .error e
  | .ok e =>
      if e.inside.isEmpty then
        .error ((Cause.noExpression after.lexeme).located (ts.headD after).pos)
      else
        match e.rest with
        | [] => .ok e
        | t :: _ =>
            if t.lexeme.isKeyword then
              .error ((Cause.keywordInExpression t.lexeme).located t.pos)
            else .ok e

theorem takeExpression_append {after : Token} {ts : List Token} {e : Extent}
    (h : takeExpression after ts = .ok e) : e.inside ++ e.rest = ts ∧ e.inside ≠ [] := by
  unfold takeExpression at h
  split at h
  · simp at h
  · rename_i e' he
    split at h
    · simp at h
    · rename_i hne
      have hcut := Extent.append_find true ts e' he
      split at h
      · simp only [Except.ok.injEq] at h
        subst h
        exact ⟨hcut, by simpa using hne⟩
      · split at h
        · simp at h
        · simp only [Except.ok.injEq] at h
          subst h
          exact ⟨hcut, by simpa using hne⟩

theorem takeExpression_length {after : Token} {ts : List Token} {e : Extent}
    (h : takeExpression after ts = .ok e) : e.rest.length < ts.length := by
  obtain ⟨hcut, hne⟩ := takeExpression_append h
  have hlen := congrArg List.length hcut
  have := List.length_pos_iff.2 hne
  simp only [List.length_append] at hlen
  omega

/-- The block in braces that a statement needs next. `last` is the place to name
when the tokens end first. -/
def takeBlock (last : Position) : List Token → Except Error Group
  | [] => .error ((Cause.unexpectedEnd .block).located last)
  | t :: ts =>
      if Bracket.brace.opens t.lexeme then
        match Bracket.brace.group? 0 ts with
        | none => .error ((Cause.unclosed .brace).located t.pos)
        | some g => .ok g
      else .error ((Cause.unexpectedToken t.lexeme .block).located t.pos)

theorem takeBlock_length {last : Position} {ts : List Token} {g : Group}
    (h : takeBlock last ts = .ok g) : g.inner.length + g.rest.length + 2 = ts.length := by
  cases ts with
  | nil => simp [takeBlock] at h
  | cons t ts =>
      simp only [takeBlock] at h
      split at h
      · split at h
        · simp at h
        · rename_i g' hg
          simp only [Except.ok.injEq] at h
          subst h
          have := Bracket.group?_length hg
          simp only [List.length_cons]
          omega
      · simp at h

end Scriptlet
