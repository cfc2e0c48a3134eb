import Scriptlet.Proofs.Outcome
import Scriptlet.Session.Evaluation

/-!
# The parentheses of an expression that has a value

Parsing makes terms of parentheses without matching them. It is sorting that does, and so an
expression has a value only if its parentheses are in pairs, at every depth: those of
arguments and elements are matched on their own. `Expr.Closes` says so without sorting, by
counting the parentheses that are open. The main statement is `Expr.closes_of_evalExpr`.
-/

namespace Scriptlet

mutual

/-- Whether the terms close as many parentheses as they open and `depth` more, none of them
before it is opened. -/
def termsClose (depth : Nat) : List Term → Prop
  | [] => depth = 0
  | .literal _ :: ts => termsClose depth ts
  | .slot _ :: ts => termsClose depth ts
  | .call _ _ args _ :: ts => argumentsClose args ∧ termsClose depth ts
  | .array items :: ts => itemsClose items ∧ termsClose depth ts
  | .op _ _ :: ts => termsClose depth ts
  | .openParen _ :: ts => termsClose (depth + 1) ts
  | .closeParen _ :: ts => ∃ below, depth = below + 1 ∧ termsClose below ts

/-- Whether the parentheses of an expression are in pairs. -/
def Expr.Closes : Expr → Prop
  | .mk terms _ => termsClose 0 terms

/-- Whether the parentheses of each element are in pairs. -/
def itemsClose : List Expr → Prop
  | [] => True
  | e :: es => e.Closes ∧ itemsClose es

/-- Whether the parentheses of each argument are in pairs. -/
def argumentsClose : List Argument → Prop
  | [] => True
  | .cell _ :: as => argumentsClose as
  | .literal _ :: as => argumentsClose as
  | .expr e :: as => e.Closes ∧ argumentsClose as

end

theorem argumentsClose_of_cons {arg : Argument} {args : List Argument}
    (h : argumentsClose (arg :: args)) : argumentsClose args := by
  cases arg with
  | cell slot => exact h
  | literal v => exact h
  | expr e => exact h.2

/-- Whether a parenthesis waits, and no operator. -/
def Pending.isParen : Pending → Bool
  | op _ _ => false
  | paren _ => true

namespace Yard

/-- The number of parentheses that wait for their partner. -/
def parens (y : Yard) : Nat :=
  y.pending.countP Pending.isParen

/-- Only operators are released. -/
theorem parens_release (precedence : Nat) (output : List Entry) (pending : List Pending) :
    (release precedence output pending).parens = pending.countP Pending.isParen := by
  induction pending generalizing output with
  | nil => rfl
  | cons p pending ih =>
      cases p with
      | paren pos => rfl
      | op o pos =>
          rw [List.countP_cons_of_neg (by simp [Pending.isParen])]
          unfold release
          split
          · exact ih _
          · simp [parens, Pending.isParen]

/-- The operators that wait in front of all parentheses are released at the end. -/
theorem release_zero (output : List Entry) (pending : List Pending) :
    (release 0 output pending).pending = [] ∨
      ∃ pos rest, (release 0 output pending).pending = .paren pos :: rest := by
  induction pending generalizing output with
  | nil => exact .inl rfl
  | cons p pending ih =>
      cases p with
      | paren pos => exact .inr ⟨pos, pending, rfl⟩
      | op o pos =>
          rw [release, if_pos (Nat.zero_le _)]
          exact ih _

theorem parens_operator (y : Yard) (o : Operator) (pos : Position) :
    (y.operator o pos).parens = y.parens := by
  have hrelease := parens_release o.precedence y.output y.pending
  unfold parens at hrelease ⊢
  rw [operator, List.countP_cons_of_neg (by simp [Pending.isParen]), hrelease]

theorem parens_openParen (y : Yard) (pos : Position) :
    (y.openParen pos).parens = y.parens + 1 :=
  List.countP_cons_of_pos rfl

theorem parens_closeParen {y closed : Yard} {pos : Position} (h : y.closeParen pos = .ok closed) :
    y.parens = closed.parens + 1 := by
  have hrelease := parens_release 0 y.output y.pending
  unfold closeParen at h
  dsimp only at h
  split at h
  · rename_i opening pending hpending
    cases h
    unfold parens at hrelease ⊢
    rw [hpending, List.countP_cons_of_pos (by simp [Pending.isParen])] at hrelease
    exact hrelease.symm
  · cases h

theorem parens_finish {y : Yard} {entries : List Entry} (h : y.finish = .ok entries) :
    y.parens = 0 := by
  have hrelease := parens_release 0 y.output y.pending
  unfold finish at h
  dsimp only at h
  rcases release_zero y.output y.pending with hnone | ⟨pos, rest, hparen⟩
  · unfold parens at hrelease ⊢
    rw [← hrelease, hnone]
    rfl
  · rw [hparen] at h
    cases h

end Yard

/-- Sorting terms until no parenthesis waits, and evaluating expressions, elements and
arguments, match all parentheses. -/
theorem closes_terms_items_expr_arguments (call : Caller) :
    (∀ start yard ts, Yields (sortTerms call start yard ts) fun sorted =>
        sorted.parens = 0 → termsClose yard.parens ts) ∧
      (∀ items, Yields (evalItems call items) fun _ => itemsClose items) ∧
      (∀ e : Expr, Yields (evalExpr call e) fun _ => e.Closes) ∧
      ∀ args, Yields (evalArguments call args) fun _ => argumentsClose args := by
  apply sortTerms.mutual_induct
  case case1 =>
    intro terms pos ih
    rw [evalExpr]
    refine (Yields.any _).bind fun start _ => (Yields.any _).bind fun _ _ => ?_
    refine (ih start).bind fun yard hyard => ?_
    cases hfinish : yard.finish with
    | error e => exact Yields.throw _
    | ok entries => exact Yields.of _ fun _ => hyard (Yard.parens_finish hfinish)
  case case2 => exact Yields.of _ fun _ => trivial
  case case3 =>
    intro slot args ih
    rw [evalArguments]
    exact (Yields.any _).bind fun _ _ => ih.bind fun sources hargs => Yields.pure hargs
  case case4 =>
    intro v args ih
    rw [evalArguments]
    exact ih.bind fun sources hargs => Yields.pure hargs
  case case5 =>
    intro e args ihe ih
    rw [evalArguments]
    exact ihe.bind fun v he => ih.bind fun sources hargs => Yields.pure ⟨he, hargs⟩
  case case6 => exact Yields.of _ fun _ => trivial
  case case7 =>
    intro e es ihe ih
    rw [evalItems]
    exact ihe.bind fun v he => ih.bind fun vs hes => Yields.pure ⟨he, hes⟩
  case case8 =>
    intro start yard
    rw [sortTerms]
    exact Yields.pure id
  case case9 =>
    intro start yard v ts ih
    rw [sortTerms]
    exact ih
  case case10 =>
    intro start yard slot ts ih
    rw [sortTerms]
    exact (Yields.any _).bind fun v _ => ih v
  case case11 =>
    intro start yard function name args pos ts ihargs ih
    rw [sortTerms]
    refine ihargs.bind fun sources hargs => (Yields.any _).bind fun frame _ => ?_
    exact (ih frame).mono fun sorted hts hsorted => ⟨hargs, hts hsorted⟩
  case case12 =>
    intro start yard items ts ihitems ih
    rw [sortTerms]
    refine ihitems.bind fun vs hitems => ?_
    exact (ih vs).mono fun sorted hts hsorted => ⟨hitems, hts hsorted⟩
  case case13 =>
    intro start yard o pos ts ih
    rw [Yard.parens_operator] at ih
    rw [sortTerms]
    exact ih
  case case14 =>
    intro start yard pos ts ih
    rw [Yard.parens_openParen] at ih
    rw [sortTerms]
    exact ih
  case case15 =>
    intro start yard pos ts ih
    rw [sortTerms]
    cases hclose : yard.closeParen pos with
    | error e => exact Yields.throw _
    | ok closed =>
        refine (ih closed).mono fun sorted hts hsorted => ?_
        exact ⟨closed.parens, Yard.parens_closeParen hclose, hts hsorted⟩

/-- An expression that has a value has its parentheses in pairs. -/
theorem Expr.closes_of_evalExpr {call : Caller} {e : Expr} {s t : Session} {v : Value}
    (h : evalExpr call e s = .ok v t) : e.Closes :=
  ((closes_terms_items_expr_arguments call).2.2.1 e).of_ok h

end Scriptlet
