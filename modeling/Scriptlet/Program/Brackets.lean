import Scriptlet.Token

/-!
# Brackets and commas

Where a bracket closes and where a list of tokens divides at its commas. A group
counts the brackets of its own kind only, so the two kinds need not be nested in
each other; commas count both kinds.
-/

namespace Scriptlet

/-- The tokens inside a bracket, the token that closes it, and the tokens after
that. -/
structure Group where
  inner : List Token
  close : Token
  rest : List Token

namespace Group

/-- One more token inside the bracket, at its front. -/
def cons (t : Token) (g : Group) : Group :=
  { g with inner := t :: g.inner }

end Group

namespace Bracket

/-- The group that the tokens after an opening bracket begin with, when `depth`
more brackets of the same kind are open inside it. -/
def group? (b : Bracket) (depth : Nat) : List Token → Option Group
  | [] => none
  | t :: ts =>
      if b.opens t.lexeme then (group? b (depth + 1) ts).map (Group.cons t)
      else if b.closes t.lexeme then
        match depth with
        | 0 => some ⟨[], t, ts⟩
        | outer + 1 => (group? b outer ts).map (Group.cons t)
      else (group? b depth ts).map (Group.cons t)

theorem group?_append {b : Bracket} {depth : Nat} {ts : List Token} {g : Group}
    (h : b.group? depth ts = some g) : ts = g.inner ++ g.close :: g.rest := by
  induction ts generalizing depth g with
  | nil => simp [group?] at h
  | cons t ts ih =>
      unfold group? at h
      split at h
      · obtain ⟨g', hg, rfl⟩ := Option.map_eq_some_iff.1 h
        simp [Group.cons, ← ih hg]
      · split at h
        · split at h
          · simp only [Option.some.injEq] at h
            subst h
            rfl
          · obtain ⟨g', hg, rfl⟩ := Option.map_eq_some_iff.1 h
            simp [Group.cons, ← ih hg]
        · obtain ⟨g', hg, rfl⟩ := Option.map_eq_some_iff.1 h
          simp [Group.cons, ← ih hg]

theorem group?_length {b : Bracket} {depth : Nat} {ts : List Token} {g : Group}
    (h : b.group? depth ts = some g) :
    ts.length = g.inner.length + g.rest.length + 1 := by
  have := congrArg List.length (group?_append h)
  simp only [List.length_append, List.length_cons] at this
  omega

end Bracket

/-- The depth after a token, when both kinds of brackets count. It falls below
zero on brackets that were never opened. -/
def Lexeme.depthAfter (depth : Int) : Lexeme → Int
  | .openParen | .openBrace => depth + 1
  | .closeParen | .closeBrace => depth - 1
  | _ => depth

/-- Whether the lexeme is a comma. -/
def Lexeme.isComma : Lexeme → Bool
  | .comma => true
  | _ => false

/-- A token in front of the first of several parts. -/
def consPart (t : Token) : List (List Token) → List (List Token)
  | [] => [[t]]
  | part :: parts => (t :: part) :: parts

/-- The parts between the commas at depth zero, when the tokens stand at `depth`.
There is always one part more than there are such commas. -/
def splitCommas (depth : Int) : List Token → List (List Token)
  | [] => [[]]
  | t :: ts =>
      if t.lexeme.isComma && depth == 0 then [] :: splitCommas depth ts
      else consPart t (splitCommas (t.lexeme.depthAfter depth) ts)

/-- The number of tokens in several parts, where each part counts one more. -/
def partsSize : List (List Token) → Nat
  | [] => 0
  | part :: parts => part.length + 1 + partsSize parts

theorem splitCommas_ne_nil (depth : Int) (ts : List Token) : splitCommas depth ts ≠ [] := by
  cases ts with
  | nil => simp [splitCommas]
  | cons t ts =>
      unfold splitCommas
      split
      · simp
      · cases splitCommas (t.lexeme.depthAfter depth) ts <;> simp [consPart]

theorem partsSize_consPart (t : Token) {parts : List (List Token)} (h : parts ≠ []) :
    partsSize (consPart t parts) = partsSize parts + 1 := by
  cases parts with
  | nil => exact absurd rfl h
  | cons part parts =>
      simp only [consPart, partsSize, List.length_cons]
      omega

/-- The parts hold all the tokens but the commas between them. -/
theorem partsSize_splitCommas (depth : Int) (ts : List Token) :
    partsSize (splitCommas depth ts) = ts.length + 1 := by
  induction ts generalizing depth with
  | nil => rfl
  | cons t ts ih =>
      unfold splitCommas
      split
      · simp only [partsSize, ih, List.length_nil, List.length_cons]
        omega
      · rw [partsSize_consPart t (splitCommas_ne_nil _ _), ih, List.length_cons]

end Scriptlet
