import Mathlib.Data.List.Infix
import Scriptlet.Proofs.Expression.Parentheses
import Scriptlet.Proofs.Expression.Sorting
import Scriptlet.Proofs.Session.Calls

/-!
# Expressions that are not well-formed

Parsing leaves it to evaluation to find out that an expression is not well-formed infix. Two
counts decide about it. Sorting refuses an expression whose parentheses are not `Balanced`, and
this before any operator is applied. Applying the operators comes to one value only if there is
one operand more than there are operators. The main statement is `evalExpr_mismatched_iff`.

Sorting keeps account of what it has taken in: each step changes the numbers of waiting
parentheses, of operands and of operators as the term at hand says (`Yard.Takes`), and so does
a whole run (`sorts_sortTerms`).
-/

namespace Scriptlet

namespace Term

@[simp] def isOpening : Term → Bool
  | openParen _ => true
  | _ => false

@[simp] def isClosing : Term → Bool
  | closeParen _ => true
  | _ => false

/-- Whether a term is an operator, of those that satisfy `p`. -/
@[simp] def isOperator (p : Operator → Bool) : Term → Bool
  | op o _ => p o
  | _ => false

/-- Whether a term stands for a value. -/
@[simp] def isOperand : Term → Bool
  | literal _ | slot _ | call .. | array _ => true
  | _ => false

end Term

/-! ### Balance -/

/-- Whether no part at the front of the terms closes more parentheses than it opens, where
`depth` are open before. -/
def Covered (depth : Nat) (ts : List Term) : Prop :=
  ∀ us, us <+: ts → us.countP Term.isClosing ≤ depth + us.countP Term.isOpening

/-- Whether the parentheses among the terms are in pairs. Those inside of arguments and of
elements are not among them. -/
def Balanced (ts : List Term) : Prop :=
  Covered 0 ts ∧ ts.countP Term.isOpening = ts.countP Term.isClosing

instance (depth : Nat) (ts : List Term) : Decidable (Covered depth ts) :=
  decidable_of_iff (∀ us ∈ ts.inits, us.countP Term.isClosing ≤ depth + us.countP Term.isOpening)
    (by simp only [Covered, List.mem_inits])

instance (ts : List Term) : Decidable (Balanced ts) :=
  inferInstanceAs (Decidable (_ ∧ _))

theorem covered_nil (depth : Nat) : Covered depth [] := by
  intro us hus
  rw [List.prefix_nil.1 hus]
  exact Nat.zero_le _

/-- After one term, what was open before it and what it opens is what is open and what it
closes. -/
theorem covered_cons {depth after : Nat} {t : Term} {ts : List Term}
    (h : after + [t].countP Term.isClosing = depth + [t].countP Term.isOpening) :
    Covered depth (t :: ts) ↔ Covered after ts := by
  have hcons (p : Term → Bool) (us : List Term) :
      (t :: us).countP p = [t].countP p + us.countP p := by
    rw [← List.countP_append, List.singleton_append]
  simp only [Covered, List.prefix_cons_iff]
  constructor
  · intro hcovered us hus
    have hlong := hcovered (t :: us) (.inr ⟨us, rfl, hus⟩)
    rw [hcons _ us, hcons _ us] at hlong
    omega
  · rintro hcovered us (rfl | ⟨us, rfl, hus⟩)
    · exact Nat.zero_le _
    · have hshort := hcovered us hus
      rw [hcons _ us, hcons _ us]
      omega

theorem not_covered_closeParen {pos : Position} {ts : List Term} :
    ¬Covered 0 (.closeParen pos :: ts) := by
  intro h
  have hfirst := h [.closeParen pos] (by simp)
  simp at hfirst

/-! ### What sorting takes in -/

namespace Entry

@[simp] def isOperand : Entry → Bool
  | operand _ => true
  | op _ _ => false

@[simp] def isOperator (p : Operator → Bool) : Entry → Bool
  | operand _ => false
  | op o _ => p o

end Entry

@[simp] def Pending.isOperator (p : Operator → Bool) : Pending → Bool
  | op o _ => p o
  | paren _ => false

namespace Yard

/-- The number of operands that have been sorted. -/
def operands (y : Yard) : Nat :=
  y.output.countP Entry.isOperand

/-- The number of operators that have been sorted or wait, of those that satisfy `p`. -/
def operators (p : Operator → Bool) (y : Yard) : Nat :=
  y.output.countP (Entry.isOperator p) + y.pending.countP (Pending.isOperator p)

/-- Whether the numbers of waiting parentheses, of operands and of operators have changed from
one yard to the other as the terms say. -/
structure Takes (ts : List Term) (before after : Yard) : Prop where
  parens : after.parens + ts.countP Term.isClosing = before.parens + ts.countP Term.isOpening
  operands : after.operands = before.operands + ts.countP Term.isOperand
  operators : ∀ p, after.operators p = before.operators p + ts.countP (Term.isOperator p)

theorem takes_nil (y : Yard) : Takes [] y y :=
  ⟨rfl, rfl, fun _ => rfl⟩

theorem Takes.append {ts us : List Term} {before between after : Yard}
    (hts : Takes ts before between) (hus : Takes us between after) :
    Takes (ts ++ us) before after := by
  obtain ⟨hparens, hoperands, hoperators⟩ := hts
  obtain ⟨hparens', hoperands', hoperators'⟩ := hus
  refine ⟨?_, ?_, fun p => ?_⟩
  · rw [List.countP_append, List.countP_append]
    omega
  · rw [List.countP_append]
    omega
  · rw [hoperators' p, hoperators p, List.countP_append, Nat.add_assoc]

theorem takes_operand {t : Term} (ht : t.isOperand) (y : Yard) (o : Operand) :
    Takes [t] y (y.operand o) := by
  cases t <;> cases ht
  all_goals
    constructor
    all_goals simp [parens, operands, operators, operand, List.countP_cons]

/-- A waiting operator that is released is sorted then. -/
theorem takes_released (output : List Entry) (o : Operator) (pos : Position)
    (pending : List Pending) :
    Takes [] ⟨output, .op o pos :: pending⟩ ⟨.op o pos :: output, pending⟩ := by
  refine ⟨rfl, rfl, fun p => ?_⟩
  cases hp : p o with
  | false => simp [operators, hp]
  | true => simp [operators, hp, Nat.add_assoc, Nat.add_comm 1]

theorem takes_release (precedence : Nat) (output : List Entry) (pending : List Pending) :
    Takes [] ⟨output, pending⟩ (release precedence output pending) := by
  induction pending generalizing output with
  | nil => exact takes_nil _
  | cons p pending ih =>
      cases p with
      | paren pos => exact takes_nil _
      | op o pos =>
          unfold release
          split
          · exact (takes_released output o pos pending).append (ih _)
          · exact takes_nil _

theorem takes_operator (y : Yard) (o : Operator) (pos : Position) :
    Takes [.op o pos] y (y.operator o pos) := by
  have hwaits (y : Yard) : Takes [.op o pos] y { y with pending := .op o pos :: y.pending } := by
    refine ⟨rfl, rfl, fun p => ?_⟩
    cases hp : p o with
    | false => simp [operators, hp]
    | true => simp [operators, hp, Nat.add_assoc]
  exact (takes_release o.precedence y.output y.pending).append (hwaits _)

theorem takes_openParen (y : Yard) (pos : Position) :
    Takes [.openParen pos] y (y.openParen pos) := by
  refine ⟨?_, rfl, fun p => ?_⟩
  · simp [parens, openParen, Pending.isParen, List.countP_cons]
  · simp [operators, openParen]

theorem takes_closeParen {y closed : Yard} {pos : Position} (h : y.closeParen pos = .ok closed) :
    Takes [.closeParen pos] y closed := by
  have hrelease := takes_release 0 y.output y.pending
  unfold closeParen at h
  dsimp only at h
  split at h
  · rename_i opening pending hpending
    cases h
    have hclosed : Takes [.closeParen pos] (release 0 y.output y.pending)
        ⟨(release 0 y.output y.pending).output, pending⟩ := by
      refine ⟨?_, rfl, fun p => ?_⟩
      · simp [parens, hpending, Pending.isParen, List.countP_cons]
      · simp [operators, hpending]
    exact hrelease.append hclosed
  · cases h

/-- Where no parenthesis waits, nothing is left waiting at the end. -/
theorem pending_release_zero {y : Yard} (h : y.parens = 0) :
    (release 0 y.output y.pending).pending = [] := by
  rcases release_zero y.output y.pending with hnone | ⟨pos, rest, hparen⟩
  · exact hnone
  · have hrelease : _ = y.parens := parens_release 0 y.output y.pending
    rw [h, parens, hparen, List.countP_cons_of_pos rfl] at hrelease
    cases hrelease

/-- A closing parenthesis has a partner where one waits. -/
theorem closeParen_of_pos {y : Yard} (h : 0 < y.parens) (pos : Position) :
    ∃ closed, y.closeParen pos = .ok closed := by
  have hrelease : _ = y.parens := parens_release 0 y.output y.pending
  unfold closeParen
  dsimp only
  rcases release_zero y.output y.pending with hnone | ⟨opening, rest, hparen⟩
  · rw [parens, hnone] at hrelease
    exact absurd hrelease (Nat.ne_of_lt h)
  · rw [hparen]
    exact ⟨_, rfl⟩

theorem closeParen_of_zero {y : Yard} (h : y.parens = 0) (pos : Position) :
    ∃ e, y.closeParen pos = .error e := by
  cases hclose : y.closeParen pos with
  | error e => exact ⟨e, rfl⟩
  | ok closed =>
      have hparens := parens_closeParen hclose
      omega

/-- At the end all that waits is sorted. -/
theorem counts_of_finish {y : Yard} {entries : List Entry} (h : y.finish = .ok entries) :
    entries.countP Entry.isOperand = y.operands ∧
      ∀ p, entries.countP (Entry.isOperator p) = y.operators p := by
  have hrelease := takes_release 0 y.output y.pending
  have hnone := pending_release_zero (parens_finish h)
  rw [finish, hnone] at h
  cases h
  refine ⟨?_, fun p => ?_⟩
  · rw [List.countP_reverse]
    exact hrelease.operands
  · have hoperators := hrelease.operators p
    rw [operators, hnone] at hoperators
    rw [List.countP_reverse]
    exact hoperators

theorem finish_of_zero {y : Yard} (h : y.parens = 0) : ∃ entries, y.finish = .ok entries :=
  ⟨_, by rw [finish, pending_release_zero h]⟩

theorem finish_of_pos {y : Yard} (h : 0 < y.parens) : ∃ e, y.finish = .error e := by
  cases hfinish : y.finish with
  | error e => exact ⟨e, rfl⟩
  | ok entries => exact absurd (parens_finish hfinish) (Nat.ne_of_gt h)

end Yard

/-! ### Sorting -/

/-- Runs the calls and the elements of arrays among the terms, from left to right, up to a
closing parenthesis without a partner. `depth` parentheses are open at the start. -/
def runParts (call : Caller) : Nat → List Term → Exec Unit
  | _, [] => return
  | depth, .literal _ :: ts => runParts call depth ts
  | depth, .slot _ :: ts => runParts call depth ts
  | depth, .call function _ args pos :: ts => do
      let sources ← evalArguments call args
      discard (call function sources (some pos))
      runParts call depth ts
  | depth, .array items :: ts => do
      discard (evalItems call items)
      runParts call depth ts
  | depth, .op _ _ :: ts => runParts call depth ts
  | depth, .openParen _ :: ts => runParts call (depth + 1) ts
  | 0, .closeParen _ :: _ => return
  | depth + 1, .closeParen _ :: ts => runParts call depth ts

/-- Every run of sorting takes in its terms. -/
theorem takes_sortTerms (call : Caller) (start : Session) (y : Yard) (ts : List Term) :
    Yields (sortTerms call start y ts) (y.Takes ts) := by
  induction ts generalizing y with
  | nil =>
      rw [sortTerms]
      exact Yields.pure y.takes_nil
  | cons first ts ih =>
      have hrest {z : Yard} (hz : y.Takes [first] z) :
          Yields (sortTerms call start z ts) (y.Takes (first :: ts)) :=
        (ih z).mono fun _ h => hz.append h
      cases first with
      | literal v =>
          rw [sortTerms]
          exact hrest (y.takes_operand rfl _)
      | slot slot =>
          rw [sortTerms]
          exact (Yields.any _).bind fun v _ => hrest (y.takes_operand rfl _)
      | call function name args pos =>
          rw [sortTerms]
          refine (Yields.any _).bind fun sources _ => (Yields.any _).bind fun frame _ => ?_
          exact hrest (y.takes_operand rfl _)
      | array items =>
          rw [sortTerms]
          exact (Yields.any _).bind fun vs _ => hrest (y.takes_operand rfl _)
      | op o pos =>
          rw [sortTerms]
          exact hrest (y.takes_operator o pos)
      | openParen pos =>
          rw [sortTerms]
          exact hrest (y.takes_openParen pos)
      | closeParen pos =>
          rw [sortTerms]
          cases hclose : y.closeParen pos with
          | error e => exact Yields.throw _
          | ok closed => exact hrest (Yard.takes_closeParen hclose)

/-- Whether an action that sorts terms from `y` on leaves the session `t`, and fails exactly on
a closing parenthesis too many. -/
def Sorts (x : Exec Yard) (s : Session) (y : Yard) (ts : List Term) (t : Session) : Prop :=
  After x s (fun _ u => u = t ∧ Covered y.parens ts)
    fun e u => u = t ∧ ¬Covered y.parens ts ∧ e.kind? = some .mismatchedParentheses

namespace Sorts

variable {x : Exec Yard} {s s' t : Session} {y z : Yard} {ts : List Term}

theorem cons {first : Term} (hfirst : y.Takes [first] z) (h : Sorts x s z ts t) :
    Sorts x s y (first :: ts) t := by
  unfold Sorts at h ⊢
  rwa [covered_cons hfirst.parens]

theorem bind {α : Type} {before : Exec α} {f : α → Exec Yard} {a : α}
    (hbefore : before s = .ok a s') (h : Sorts (f a) s' y ts t) :
    Sorts (before >>= f) s y ts t := by
  unfold Sorts After at h ⊢
  rw [bind_of_ok hbefore]
  exact h

end Sorts

/-- Sorting does nothing to the session but to run the calls and the elements of arrays. If
these do not fail, it fails exactly if there is a closing parenthesis too many. -/
theorem sorts_sortTerms {call : Caller} {start s t : Session} {y : Yard} {ts : List Term}
    (hcells : ∀ slot ∈ Term.slots ts, start.Has slot)
    (hparts : runParts call y.parens ts s = .ok () t) :
    Sorts (sortTerms call start y ts) s y ts t := by
  induction ts generalizing y s with
  | nil =>
      rw [sortTerms]
      cases hparts
      exact ⟨rfl, covered_nil _⟩
  | cons first ts ih =>
      cases first with
      | literal v =>
          rw [sortTerms]
          exact .cons (y.takes_operand rfl _) (ih hcells hparts)
      | slot slot =>
          obtain ⟨hslot, hcells⟩ := List.forall_mem_cons.1 hcells
          obtain ⟨v, hv⟩ := Session.has_iff.1 hslot
          have hread : Exec.readIn start slot s = .ok v s := by
            rw [Exec.readIn, hv]
            rfl
          rw [sortTerms]
          exact .bind hread (.cons (y.takes_operand rfl _) (ih hcells hparts))
      | call function name args pos =>
          rw [runParts] at hparts
          obtain ⟨sources, s₁, hargs, hparts⟩ := exists_of_bind_ok hparts
          obtain ⟨_, s₂, hcall, hparts⟩ := exists_of_bind_ok hparts
          obtain ⟨frame, hframe⟩ := exists_of_discard_ok hcall
          rw [sortTerms]
          exact .bind hargs (.bind hframe (.cons (y.takes_operand rfl _) (ih hcells hparts)))
      | array items =>
          rw [runParts] at hparts
          obtain ⟨_, s₁, hitems, hparts⟩ := exists_of_bind_ok hparts
          obtain ⟨vs, hvs⟩ := exists_of_discard_ok hitems
          rw [sortTerms]
          exact .bind hvs (.cons (y.takes_operand rfl _) (ih hcells hparts))
      | op o pos =>
          rw [sortTerms]
          rw [runParts, ← y.parens_operator o pos] at hparts
          exact .cons (y.takes_operator o pos) (ih hcells hparts)
      | openParen pos =>
          rw [sortTerms]
          rw [runParts, ← y.parens_openParen pos] at hparts
          exact .cons (y.takes_openParen pos) (ih hcells hparts)
      | closeParen pos =>
          rw [sortTerms]
          cases hparens : y.parens with
          | zero =>
              obtain ⟨e, hclose⟩ := Yard.closeParen_of_zero hparens pos
              rw [hparens, runParts] at hparts
              cases hparts
              rw [hclose]
              refine ⟨rfl, ?_, congrArg some (Yard.kind_closeParen hclose)⟩
              rw [hparens]
              exact not_covered_closeParen
          | succ below =>
              have hpos : 0 < y.parens := by omega
              obtain ⟨closed, hclose⟩ := Yard.closeParen_of_pos hpos pos
              have hbelow := Yard.parens_closeParen hclose
              rw [hbelow, runParts] at hparts
              rw [hclose]
              exact .cons (Yard.takes_closeParen hclose) (ih hcells hparts)

/-! ### Applying the operators -/

namespace Entry

theorem after_applyTo (o : Operator) (pos : Position) (a b : Operand) (s : Session) :
    After (applyTo o pos a b) s (fun _ _ => True)
      fun e _ => e.kind? ≠ some .mismatchedParentheses := by
  unfold applyTo
  cases hv : o.apply a.value b.value with
  | error cause =>
      have hkind := Operator.kind_apply hv
      simp [Exec.fail, Failure.kind?, Cause.located, hkind]
  | ok v =>
      dsimp only
      split
      · split
        · rename_i slot hsource
          rw [after_bind, Exec.write, after_bind, Exec.read, after_bind, after_get, Exec.readIn]
          cases s.cell slot with
          | ok w => trivial
          | error p => simp [Failure.kind?]
        · trivial
      · trivial

/-- Every operator takes two operands and leaves one. -/
theorem after_run (stack : List Operand) (entries : List Entry) (s : Session) :
    After (run stack entries) s
      (fun left _ => left.length + entries.countP (isOperator fun _ => true) =
        stack.length + entries.countP isOperand)
      fun e _ => e.kind? ≠ some .mismatchedParentheses := by
  fun_induction run stack entries generalizing s with
  | case1 stack => rfl
  | case2 stack o entries ih =>
      refine (ih s).mono ?_ fun _ _ h => h
      intro left t h
      rw [List.length_cons] at h
      rw [List.countP_cons_of_neg (by simp), List.countP_cons_of_pos rfl]
      omega
  | case3 b a stack o pos entries ih =>
      rw [after_bind]
      refine (after_applyTo o pos a b s).mono ?_ fun _ _ h => h
      intro result t _
      refine (ih result t).mono ?_ fun _ _ h => h
      intro left u h
      rw [List.length_cons] at h
      rw [List.countP_cons_of_pos rfl, List.countP_cons_of_neg (by simp), List.length_cons,
        List.length_cons]
      omega
  | case4 stack o pos entries hfew =>
      simp [Exec.fail, Failure.kind?, Cause.located, Cause.kind]

theorem after_evaluate (pos : Position) (entries : List Entry) (s : Session) :
    After (evaluate pos entries) s
      (fun _ _ => entries.countP isOperand = entries.countP (isOperator fun _ => true) + 1)
      fun e _ => e.kind? ≠ some .mismatchedParentheses := by
  rw [evaluate, after_bind]
  refine (after_run [] entries s).mono ?_ fun _ _ h => h
  intro left t h
  split
  · rw [List.length_nil, List.length_singleton] at h
    rw [after_pure]
    omega
  · simp [Exec.fail, Failure.kind?, Cause.located, Cause.kind]

end Entry

/-! ### The expression -/

variable {call : Caller} {s t : Session} {slots : List Slot}

theorem probe_of_has (h : ∀ slot ∈ slots, s.Has slot) (u : Session) :
    probe s slots u = .ok () u := by
  induction slots with
  | nil => rfl
  | cons slot slots ih =>
      obtain ⟨hslot, hslots⟩ := List.forall_mem_cons.1 h
      obtain ⟨v, hv⟩ := Session.has_iff.1 hslot
      rw [probe, List.forM_eq_forM, List.forM_cons, Exec.readIn, hv]
      exact ih hslots

theorem probe_of_not_has (h : ∃ slot ∈ slots, ¬s.Has slot) (u : Session) :
    ∃ p, probe s slots u = .error (.panic p) u := by
  induction slots with
  | nil => simp at h
  | cons slot slots ih =>
      rw [probe, List.forM_eq_forM, List.forM_cons, Exec.readIn]
      cases hcell : s.cell slot with
      | error p => exact ⟨p, rfl⟩
      | ok v =>
          have hslot : s.Has slot := Session.has_iff.2 ⟨v, hcell⟩
          exact ih (by simpa [hslot] using h)

/-- An expression probes its variables before anything else. -/
theorem evalExpr_probe (call : Caller) (e : Expr) (s : Session) :
    evalExpr call e s = (probe s (Term.slots e.terms) >>= fun _ =>
      sortTerms call s .empty e.terms >>= fun yard =>
        Exec.ofExcept yard.finish >>= Entry.evaluate e.pos) s := by
  obtain ⟨terms, pos⟩ := e
  rw [evalExpr]
  rfl

/-- What evaluating an expression comes to, well-formed or not, if its calls and the elements
of its arrays are run without a failure. -/
theorem after_evalExpr {e : Expr} (hcells : ∀ slot ∈ Term.slots e.terms, s.Has slot)
    (hparts : runParts call 0 e.terms s = .ok () t) :
    After (evalExpr call e) s
      (fun _ _ => Balanced e.terms ∧
        e.terms.countP Term.isOperand = e.terms.countP (Term.isOperator fun _ => true) + 1)
      fun failure u =>
        (Balanced e.terms ∧ failure.kind? ≠ some .mismatchedParentheses) ∨
          (¬Balanced e.terms ∧ u = t ∧ failure.kind? = some .mismatchedParentheses) := by
  unfold After
  rw [evalExpr_probe, bind_of_ok (probe_of_has hcells s)]
  change After _ s _ _
  rw [after_bind]
  refine (sorts_sortTerms hcells hparts).eq_ok.mono ?_ ?_
  · rintro sorted u ⟨hsorted, rfl, hcovered⟩
    obtain ⟨hparens, hoperands, hoperators⟩ :=
      (takes_sortTerms call s .empty e.terms).of_ok hsorted
    -- An empty yard holds nothing, so what is counted in the end is what the terms hold.
    change _ = 0 + _ at hparens hoperands
    have hoperators : _ = 0 + _ := hoperators fun _ => true
    rw [after_bind, Exec.after_ofExcept]
    by_cases hzero : sorted.parens = 0
    · have hbalanced : Balanced e.terms := ⟨hcovered, by omega⟩
      obtain ⟨entries, hfinish⟩ := Yard.finish_of_zero hzero
      obtain ⟨hoperands', hoperators'⟩ := Yard.counts_of_finish hfinish
      rw [hfinish]
      refine (Entry.after_evaluate e.pos entries u).mono ?_ ?_
      · intro _ _ hcount
        rw [hoperands', hoperators'] at hcount
        exact ⟨hbalanced, by omega⟩
      · intro failure _ hkind
        exact .inl ⟨hbalanced, hkind⟩
    · obtain ⟨error, hfinish⟩ := Yard.finish_of_pos (Nat.pos_of_ne_zero hzero)
      rw [hfinish]
      refine .inr ⟨?_, rfl, congrArg some (Yard.kind_finish hfinish)⟩
      intro hbalanced
      have hequal := hbalanced.2
      omega
  · rintro failure u ⟨rfl, hcovered, hkind⟩
    exact .inr ⟨fun hbalanced => hcovered hbalanced.1, rfl, hkind⟩

/-- An expression of any terms whose calls and elements of arrays are run without a failure. If
a variable is not there, nothing is done. Otherwise the expression fails for its parentheses
exactly if they are not balanced, and then the session is as the calls and elements left it: no
operator has been applied. If they are balanced, but there is not one operand more than there
are operators, it has no value. -/
theorem evalExpr_mismatched_iff {e : Expr} (hparts : runParts call 0 e.terms s = .ok () t) :
    ((∃ slot ∈ Term.slots e.terms, ¬s.Has slot) →
      ∃ p, evalExpr call e s = .error (.panic p) s) ∧
    ((∀ slot ∈ Term.slots e.terms, s.Has slot) →
      ((∃ failure u, evalExpr call e s = .error failure u ∧
          failure.kind? = some .mismatchedParentheses) ↔ ¬Balanced e.terms) ∧
      (¬Balanced e.terms → ∃ failure, evalExpr call e s = .error failure t) ∧
      (Balanced e.terms →
        e.terms.countP Term.isOperand ≠ e.terms.countP (Term.isOperator fun _ => true) + 1 →
          ∀ v u, evalExpr call e s ≠ .ok v u)) := by
  refine ⟨fun hmissing => ?_, fun hcells => ?_⟩
  · obtain ⟨p, hp⟩ := probe_of_not_has hmissing s
    exact ⟨p, by rw [evalExpr_probe, bind_of_error hp]⟩
  have hafter := after_evalExpr hcells hparts
  cases hend : evalExpr call e s with
  | ok v u =>
      obtain ⟨hbalanced, hcount⟩ := hafter.of_ok hend
      refine ⟨⟨?_, absurd hbalanced⟩, absurd hbalanced, fun _ hne => absurd hcount hne⟩
      rintro ⟨failure, u, hfailed, -⟩
      cases hfailed
  | error failure u =>
      refine ⟨?_, ?_, fun _ _ _ _ => nofun⟩
      · rcases hafter.of_error hend with ⟨hbalanced, hkind⟩ | ⟨hunbalanced, -, hkind⟩
        · refine ⟨?_, absurd hbalanced⟩
          rintro ⟨failure, u, hfailed, hkind'⟩
          cases hfailed
          exact absurd hkind' hkind
        · exact ⟨fun _ => hunbalanced, fun _ => ⟨failure, u, rfl, hkind⟩⟩
      · intro hunbalanced
        rcases hafter.of_error hend with ⟨hbalanced, -⟩ | ⟨-, rfl, -⟩
        · exact absurd hbalanced hunbalanced
        · exact ⟨failure, rfl⟩

/-- The terms of `both(x, x) + (x = 5`, whose call writes to `x` as the assignment would. -/
def unclosedAssignment : Expr :=
  .mk [.call 0 "both" [.cell (.global 0 "x"), .cell (.global 0 "x")] ⟨1, 1, 0⟩,
    .op .add ⟨1, 12, 11⟩, .openParen ⟨1, 14, 13⟩, .slot (.global 0 "x"), .op .set ⟨1, 17, 16⟩,
    .literal (.int 5)] ⟨1, 1, 0⟩

theorem evalExpr_mismatched_iff_unclosed :
    ∃ t, runParts (invoke 0 maxFrames) 0 unclosedAssignment.terms setBothSession = .ok () t ∧
      t.cell (.global 0 "x") = .ok (.int 2) ∧
      (∀ slot ∈ Term.slots unclosedAssignment.terms, setBothSession.Has slot) ∧
      ¬Balanced unclosedAssignment.terms ∧
      ∃ failure, evalExpr (invoke 0 maxFrames) unclosedAssignment setBothSession =
        .error failure t := by
  have hbalance : ¬Balanced unclosedAssignment.terms := by decide
  have hcells : ∀ slot ∈ Term.slots unclosedAssignment.terms, setBothSession.Has slot := by
    intro slot hslot
    obtain rfl := List.mem_singleton.1 hslot
    exact Nat.zero_lt_one
  obtain ⟨t, hparts, hcell⟩ : ∃ t, runParts (invoke 0 maxFrames) 0 unclosedAssignment.terms
      setBothSession = .ok () t ∧ t.cell (.global 0 "x") = .ok (.int 2) := ⟨_, rfl, rfl⟩
  exact ⟨t, hparts, hcell, hcells, hbalance,
    ((evalExpr_mismatched_iff hparts).2 hcells).2.1 hbalance⟩

end Scriptlet
