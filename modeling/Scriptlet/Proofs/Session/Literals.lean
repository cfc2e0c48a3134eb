import Scriptlet.Proofs.Session.Braces

/-!
# Literals of values

Tokens that write a value down: a literal, a minus sign in front of a number, or braces around
such tokens with commas between them. Wherever an operand is due they are parsed without
regard to what is declared, and the expression has this value in every session. The main
statement is `Exec.eval_of_writes`.
-/

namespace Scriptlet

mutual

/-- The tokens write the value. -/
inductive Writes : List Token → Value → Prop where
  | literal {t : Token} {v : Value} (h : Parser.literal? t.lexeme = some v) : Writes [t] v
  | signed {t number : Token} {o : Operator} {v : Value} (ht : t.lexeme = .op o)
      (h : Parser.signed? o true [number] = some (v, [])) : Writes [t, number] v
  | array {opening closing : Token} {inner : List Token} {vs : List Value}
      (hopening : opening.lexeme = .openBrace) (hclosing : closing.lexeme = .closeBrace)
      (hinner : WritesAll inner vs) : Writes (opening :: (inner ++ [closing])) (.array vs)

/-- The tokens write the values one after the other, with commas between them. -/
inductive WritesAll : List Token → List Value → Prop where
  | nil : WritesAll [] []
  | last {ts : List Token} {v : Value} (h : Writes ts v) : WritesAll ts [v]
  | cons {ts us : List Token} {comma : Token} {v : Value} {vs : List Value} (h : Writes ts v)
      (hcomma : comma.lexeme = .comma) (hus : WritesAll us vs) :
      WritesAll (ts ++ comma :: us) (v :: vs)

end

variable {t number : Token} {ts us inner : List Token} {v : Value} {vs : List Value}

theorem Writes.ne_nil (h : Writes ts v) : ts ≠ [] := by
  cases h <;> exact List.cons_ne_nil _ _

theorem Parser.literal?_of_signed? {o : Operator}
    (h : signed? o true [number] = some (v, [])) : ∃ w, literal? number.lexeme = some w := by
  obtain ⟨t, w, heq, hw⟩ := exists_literal_of_signed? h
  cases heq
  exact ⟨w, hw⟩

/-! ### Where they end -/

/-- Tokens that nothing divides are one part. -/
theorem Undivided.splitCommas_eq (h : Undivided 0 0 ts) : splitCommas 0 ts = [ts] := by
  have hsplit := h.splitCommas_append []
  rwa [List.append_nil, splitCommas, foldr_consPart, List.append_nil] at hsplit

theorem Undivided.splitCommas_comma {comma : Token} (h : Undivided 0 0 ts)
    (hcomma : comma.lexeme = .comma) (us : List Token) :
    splitCommas 0 (ts ++ comma :: us) = ts :: splitCommas 0 us := by
  rw [h.splitCommas_append, Scriptlet.splitCommas_comma hcomma, foldr_consPart, List.append_nil]

/-- The brace behind level tokens closes the group that they are in. -/
theorem Level.group? {closing : Token} (h : Level inner) (hclosing : closing.lexeme = .closeBrace)
    (rest : List Token) :
    Bracket.brace.group? 0 (inner ++ closing :: rest) = some ⟨inner, closing, rest⟩ := by
  rw [h, group?_close_zero hclosing, Option.map_some, List.append_nil]

theorem Exec.dropSemicolons_concat (h : t.lexeme ≠ .semicolon) (ts : List Token) :
    dropSemicolons (ts ++ [t]) = ts ++ [t] := by
  simp [dropSemicolons]

theorem Parser.literal?_ne_semicolon (h : literal? t.lexeme = some v) :
    t.lexeme ≠ .semicolon := by
  intro heq
  rw [heq] at h
  cases h

theorem Writes.dropSemicolons (h : Writes ts v) : Exec.dropSemicolons ts = ts := by
  cases h with
  | literal h => exact Exec.dropSemicolons_concat (Parser.literal?_ne_semicolon h) []
  | signed ht h =>
      obtain ⟨w, hw⟩ := Parser.literal?_of_signed? h
      exact Exec.dropSemicolons_concat (Parser.literal?_ne_semicolon hw) [_]
  | array hopening hclosing hinner =>
      exact Exec.dropSemicolons_concat (by simp [hclosing]) (_ :: _)

theorem Extent.find_nil (operand : Bool) : find operand [] = .ok ⟨[], []⟩ := by
  rw [find]

/-- An expression goes on behind a token that neither ends it nor opens a group. -/
theorem Extent.find_token {l : Lexeme} (ht : t.lexeme = l) (hends : ends l = false)
    (hbrace : Bracket.brace.opens l = false) (hparen : callParen? l ts = none) (operand : Bool) :
    find operand (t :: ts) = (find (wantsOperand l) ts).map (prepend [t]) := by
  rw [find_cons, ht, if_neg (by simp [hends]), if_neg (by simp [hbrace]), hparen]

theorem Extent.find_literal (h : Parser.literal? t.lexeme = some v) (operand : Bool) :
    find operand [t] = .ok ⟨[t], []⟩ := by
  cases hl : t.lexeme with
  | string | int | float | bool =>
      rw [find_token hl rfl rfl rfl, find_nil]
      rfl
  | _ =>
      rw [hl] at h
      cases h

/-! ### What they are parsed as -/

/-- What a value is read from: tokens that neither braces nor commas divide and that are parsed,
whatever is declared, as an expression which has the value in every session. -/
structure Constant (ts : List Token) (v : Value) : Prop where
  level : Level ts
  undivided : Undivided 0 0 ts
  parsed (scope : Scope) : ∃ made, Parser.terms scope true ts = pure made ∧
    ∀ call pos s, evalExpr call (.mk made pos) s = .ok v s

/-- What the elements of an array are read from. -/
structure Constants (inner : List Token) (vs : List Value) : Prop where
  level : Level inner
  undivided : Undivided 1 0 inner
  parsed (scope : Scope) : ∃ items, Parser.elements scope (splitCommas 0 inner) = pure items ∧
    ∀ call s, evalItems call items s = .ok vs s

theorem evalExpr_literal (call : Caller) (v : Value) (pos : Position) (s : Session) :
    evalExpr call (.mk [.literal v] pos) s = .ok v s := by
  rw [evalExpr]
  rfl

theorem constant_literal (h : Parser.literal? t.lexeme = some v) : Constant [t] v where
  level := Parser.level_literal h level_nil
  undivided := Parser.undivided_literal h undivided_nil
  parsed scope := by
    refine ⟨[.literal v], ?_, fun call => evalExpr_literal call v⟩
    rw [Parser.terms_literal h, Parser.terms_nil, pure_bind]

theorem constant_signed {o : Operator} (ht : t.lexeme = .op o)
    (h : Parser.signed? o true [number] = some (v, [])) : Constant [t, number] v where
  level := (Parser.level_signed? h level_nil).cons ht (by simp)
  undivided := (Parser.undivided_signed? h undivided_nil).cons ht (by simp) fun _ => rfl
  parsed scope := by
    refine ⟨[.literal v], ?_, fun call => evalExpr_literal call v⟩
    rw [Parser.terms_op ht, h]
    simp only [Parser.terms_nil, pure_bind]

theorem Constants.array {opening closing : Token} (h : Constants inner vs)
    (hopening : opening.lexeme = .openBrace) (hclosing : closing.lexeme = .closeBrace) :
    Constant (opening :: (inner ++ [closing])) (.array vs) := by
  have hgroup := h.level.group? hclosing []
  refine ⟨level_group hopening hgroup, undivided_group hopening hgroup h.undivided,
    fun scope => ?_⟩
  obtain ⟨items, hitems, hvalues⟩ := h.parsed scope
  refine ⟨[.array items], ?_, fun call pos s => evalExpr_array pos (hvalues call s)⟩
  rw [Parser.terms_array hopening hgroup, hitems, Parser.terms_nil]
  simp only [pure_bind]

theorem constants_nil : Constants [] [] where
  level := level_nil
  undivided := undivided_nil
  parsed scope := by
    refine ⟨[], ?_, fun call s => ?_⟩
    · rw [splitCommas, Parser.elements_skip, Parser.elements_nil]
    · rw [evalItems]
      rfl

/-- One more element in front, which is the first of the parts. -/
theorem Constant.elements (h : Constant ts v) (hts : ts ≠ []) {scope : Scope}
    {parts : List (List Token)} {items : List Expr}
    (hparts : Parser.elements scope parts = pure items)
    (hvalues : ∀ call s, evalItems call items s = .ok vs s) :
    ∃ items, Parser.elements scope (ts :: parts) = pure items ∧
      ∀ call s, evalItems call items s = .ok (v :: vs) s := by
  obtain ⟨first, others, rfl⟩ := List.exists_cons_of_ne_nil hts
  obtain ⟨made, hmade, hvalue⟩ := h.parsed scope
  refine ⟨.mk made first.pos :: items, ?_, fun call s => ?_⟩
  · rw [Parser.elements_cons, hmade, hparts]
    simp only [pure_bind]
  · rw [evalItems, bind_of_ok (hvalue call _ s), bind_of_ok (hvalues call s)]
    rfl

theorem Constant.last (h : Constant ts v) (hts : ts ≠ []) : Constants ts [v] where
  level := h.level
  undivided := h.undivided.inside
  parsed scope := by
    rw [h.undivided.splitCommas_eq]
    refine h.elements hts Parser.elements_nil fun call s => ?_
    rw [evalItems]
    rfl

theorem Constant.cons {comma : Token} (h : Constant ts v) (hts : ts ≠ [])
    (hcomma : comma.lexeme = .comma) (hus : Constants us vs) :
    Constants (ts ++ comma :: us) (v :: vs) where
  level := h.level.append (hus.level.cons hcomma (by simp))
  undivided := h.undivided.inside.append ((undivided_comma hcomma).append hus.undivided)
  parsed scope := by
    obtain ⟨items, hitems, hvalues⟩ := hus.parsed scope
    rw [h.undivided.splitCommas_comma hcomma]
    exact h.elements hts hitems hvalues

mutual

theorem Writes.constant {ts : List Token} {v : Value} : Writes ts v → Constant ts v
  | .literal h => constant_literal h
  | .signed ht h => constant_signed ht h
  | .array hopening hclosing hinner => hinner.constants.array hopening hclosing

theorem WritesAll.constants {inner : List Token} {vs : List Value} :
    WritesAll inner vs → Constants inner vs
  | .nil => constants_nil
  | .last h => h.constant.last h.ne_nil
  | .cons h hcomma hus => h.constant.cons h.ne_nil hcomma hus.constants

end

/-! ### Evaluating them -/

/-- They are one expression, up to their end. -/
theorem Writes.find (h : Writes ts v) : Extent.find true ts = .ok ⟨ts, []⟩ := by
  cases h with
  | literal h => exact Extent.find_literal h true
  | signed ht h =>
      obtain ⟨w, hw⟩ := Parser.literal?_of_signed? h
      rw [Extent.find_token ht rfl rfl rfl, Extent.find_literal hw]
      rfl
  | array hopening hclosing hinner =>
      have hgroup := hinner.constants.level.group? hclosing []
      rw [Extent.find_cons, hopening, hgroup]
      simp [Extent.ends, Bracket.opens, Extent.find_nil, Except.map, Extent.prepend]

/-- A source that writes a value is evaluated to this value. -/
theorem Exec.eval_of_writes {source : String} (hlexed : (tokenize source).toExcept = .ok ts)
    (h : Writes ts v) (fuel : Nat) (s : Session) : eval fuel source s = .ok v s := by
  obtain ⟨first, others, rfl⟩ := List.exists_cons_of_ne_nil h.ne_nil
  obtain ⟨made, hmade, hvalue⟩ := h.constant.parsed .top
  have hparsed : parseExpr source s = .ok (.mk made first.pos) s := by
    rw [parseExpr_of_cover hlexed h.dropSemicolons h.find rfl, Parser.expression, hmade]
    rfl
  rw [eval, bind_of_ok hparsed, hvalue]

end Scriptlet
