import Scriptlet.Proofs.Outcome
import Scriptlet.Proofs.Program.Loops
import Scriptlet.Proofs.Program.References
import Scriptlet.Session.Evaluation

/-!
# What running a program upholds

A program touches the session only through the cells and functions that it mentions,
its `references`. So a property of sessions that survives each access to a cell and
each call survives every run. `Upheld` collects what has to be known about single
accesses, and `Exec.Upholds` says what then follows for an action: the property still
holds afterwards, and a failure is one of those that are permitted.

The main statements are `upholds_evalExpr` and `upholds_execBlock`. They leave open how
functions are called; the calls are a hypothesis, which is discharged by induction on
how deep calls are nested. That a loop runs longer than its bound has to be permitted only
where there is a conditional loop.
-/

namespace Scriptlet

/-- The variables that an expression reads at its start are mentioned in it. -/
theorem mem_termReferences {slot : Slot} {ts : List Term} (h : slot ∈ Term.slots ts) :
    .cell slot ∈ termReferences ts := by
  induction ts with
  | nil => simp [Term.slots] at h
  | cons t ts ih =>
      cases t with
      | slot s =>
          rcases List.mem_cons.1 h with rfl | hmem
          · exact List.mem_cons_self
          · exact List.mem_cons_of_mem _ (ih hmem)
      | call function name args pos =>
          rw [termReferences]
          exact List.mem_cons_of_mem _ (List.mem_append_right _ (ih h))
      | array items =>
          rw [termReferences]
          exact List.mem_append_right _ (ih h)
      | literal v => exact ih h
      | op o pos => exact ih h
      | openParen pos => exact ih h
      | closeParen pos => exact ih h

namespace Exec

variable {α β : Type} {inv : Session → Prop} {may : Failure → Prop}
  {result : α → Prop} {result' : β → Prop}

/-- Whether an action keeps `inv`, gives results that satisfy `result`, and fails only as
`may` permits. -/
def Upholds (inv : Session → Prop) (may : Failure → Prop) (result : α → Prop) (x : Exec α) :
    Prop :=
  ∀ s, inv s → After x s (fun a t => inv t ∧ result a) fun e t => inv t ∧ may e

theorem Upholds.pure {a : α} (ha : result a) : Upholds inv may result (pure a) :=
  fun _ hs => ⟨hs, ha⟩

theorem Upholds.throw {e : Failure} (he : may e) : Upholds inv may result (throw e) :=
  fun _ hs => ⟨hs, he⟩

theorem Upholds.bind {x : Exec α} {f : α → Exec β} (hx : Upholds inv may result x)
    (hf : ∀ a, result a → Upholds inv may result' (f a)) :
    Upholds inv may result' (x >>= f) := by
  intro s hs
  rw [after_bind]
  refine (hx s hs).mono ?_ fun _ _ h => h
  intro a t ht
  exact hf a ht.2 t ht.1

theorem Upholds.discard {x : Exec α} (hx : Upholds inv may result x) :
    Upholds inv may (fun _ => True) (discard x) := by
  intro s hs
  rw [after_discard]
  exact (hx s hs).mono (fun _ _ h => ⟨h.1, trivial⟩) fun _ _ h => h

/-- An action that begins by looking at the session may use that the property holds. -/
theorem Upholds.get_bind {f : Session → Exec β}
    (hf : ∀ start, inv start → Upholds inv may result' (f start)) :
    Upholds inv may result' (get >>= f) := by
  intro s hs
  rw [after_bind, after_get]
  exact hf s hs s hs

theorem after_ofExcept {ok : α → Session → Prop} {failed : Failure → Session → Prop}
    (x : Except Error α) (s : Session) :
    After (ofExcept x) s ok failed ↔
      match x with
      | .ok a => ok a s
      | .error e => failed (.error e) s := by
  cases x <;> rfl

theorem Upholds.forM {f : α → Exec Unit} {xs : List α}
    (hf : ∀ a ∈ xs, Upholds inv may (fun _ => True) (f a)) :
    Upholds inv may (fun _ => True) (xs.forM f) := by
  induction xs with
  | nil => exact Upholds.pure trivial
  | cons x xs ih =>
      rw [List.forM_eq_forM, List.forM_cons]
      refine (hf x List.mem_cons_self).bind ?_
      intro _ _
      exact ih fun a ha => hf a (List.mem_cons_of_mem x ha)

end Exec

/-- What single accesses must do so that every run upholds `inv`: reading fails only as
`may` permits, writing keeps `inv`, and the errors of running programs are permitted. All
this is asked for the references that satisfy `ok` only. -/
structure Upheld (inv : Session → Prop) (may : Failure → Prop) (ok : Reference → Prop) :
    Prop where
  cell : ∀ {s slot p}, inv s → ok (.cell slot) → s.cell slot = .error p → may (.panic p)
  setCell : ∀ {s slot w} (v : Value), inv s → ok (.cell slot) → s.cell slot = .ok w →
    inv (s.setCell slot v)
  error : ∀ e : Error, e.cause.kind ≠ .parse → may (.error e)

namespace Source

variable {ok : Slot → Prop} {source : Source} {sources : List Source}

/-- Whether the arguments of a call pass only cells that satisfy `ok`. -/
def Within (ok : Slot → Prop) (sources : List Source) : Prop :=
  ∀ slot, cell slot ∈ sources → ok slot

theorem within_nil (ok : Slot → Prop) : Within ok [] :=
  fun _ hmem => absurd hmem List.not_mem_nil

theorem within_values (ok : Slot → Prop) (vs : List Value) : Within ok (vs.map value) := by
  intro slot hmem
  simp at hmem

theorem Within.value (v : Value) (h : Within ok sources) : Within ok (value v :: sources) := by
  intro slot hmem
  rcases List.mem_cons.1 hmem with heq | hmem
  · cases heq
  · exact h slot hmem

theorem Within.cell {slot : Slot} (hslot : ok slot) (h : Within ok sources) :
    Within ok (cell slot :: sources) := by
  intro slot' hmem
  rcases List.mem_cons.1 hmem with heq | hmem
  · cases heq
    exact hslot
  · exact h slot' hmem

theorem Within.of_cons (h : Within ok (source :: sources)) : Within ok sources :=
  fun slot hmem => h slot (List.mem_cons_of_mem _ hmem)

end Source

/-- Whether the calls of functions that satisfy `ok` uphold `inv`. -/
def Caller.Upholds (inv : Session → Prop) (may : Failure → Prop) (ok : Reference → Prop)
    (call : Caller) : Prop :=
  ∀ index sources pos?, ok (.function index) → Source.Within (ok <| .cell ·) sources →
    Exec.Upholds inv may (fun _ => True) (call index sources pos?)

namespace Upheld

variable {inv : Session → Prop} {may : Failure → Prop} {ok : Reference → Prop}

theorem upholds_readIn (h : Upheld inv may ok) {start : Session} {slot : Slot}
    (hstart : inv start) (hslot : ok (.cell slot)) :
    Exec.Upholds inv may (fun _ => True) (Exec.readIn start slot) := by
  unfold Exec.readIn
  cases hcell : start.cell slot with
  | ok v => exact Exec.Upholds.pure trivial
  | error p => exact Exec.Upholds.throw (h.cell hstart hslot hcell)

theorem upholds_read (h : Upheld inv may ok) {slot : Slot} (hslot : ok (.cell slot)) :
    Exec.Upholds inv may (fun _ => True) (Exec.read slot) :=
  Exec.Upholds.get_bind fun _ hstart => h.upholds_readIn hstart hslot

theorem upholds_write (h : Upheld inv may ok) {slot : Slot} (hslot : ok (.cell slot))
    (v : Value) : Exec.Upholds inv may (fun _ => True) (Exec.write slot v) := by
  intro s hs
  unfold Exec.write Exec.read Exec.readIn
  rw [after_bind, after_bind, after_get]
  cases hcell : s.cell slot with
  | ok w => exact ⟨h.setCell v hs hslot hcell, trivial⟩
  | error p => exact ⟨hs, h.cell hs hslot hcell⟩

theorem upholds_ofExcept {α : Type} {result : α → Prop} (h : Upheld inv may ok)
    {x : Except Error α} (hok : ∀ a, x = .ok a → result a)
    (herror : ∀ e, x = .error e → e.cause.kind ≠ .parse) :
    Exec.Upholds inv may result (Exec.ofExcept x) := by
  cases x with
  | ok a => exact Exec.Upholds.pure (hok a rfl)
  | error e => exact Exec.Upholds.throw (h.error e (herror e rfl))

end Upheld

/-! ### Sorting and applying operators -/

namespace Operand

/-- Whether the source of an operand, if it has one, satisfies `ok`. -/
def Within (ok : Reference → Prop) (o : Operand) : Prop :=
  ∀ slot, o.source? = some slot → ok (.cell slot)

theorem within_none (ok : Reference → Prop) (v : Value) : Within ok ⟨v, none⟩ := by
  intro slot h
  cases h

theorem within_some {ok : Reference → Prop} {slot : Slot} (h : ok (.cell slot)) (v : Value) :
    Within ok ⟨v, some slot⟩ := by
  intro slot' heq
  cases heq
  exact h

end Operand

/-- Whether the sources of all operands among the entries satisfy `ok`. -/
def Entry.Within (ok : Reference → Prop) (entries : List Entry) : Prop :=
  ∀ o, Entry.operand o ∈ entries → o.Within ok

theorem Entry.within_nil (ok : Reference → Prop) : Within ok [] :=
  fun _ hmem => absurd hmem List.not_mem_nil

namespace Yard

variable {ok : Reference → Prop}

theorem within_operand {y : Yard} {o : Operand} (hy : Entry.Within ok y.output)
    (ho : o.Within ok) : Entry.Within ok (y.operand o).output := by
  intro o' h'
  rcases List.mem_cons.1 h' with heq | hmem
  · cases heq
    exact ho
  · exact hy o' hmem

/-- Releasing operators brings no operands into the output. -/
theorem within_release (precedence : Nat) {output : List Entry} (pending : List Pending)
    (h : Entry.Within ok output) : Entry.Within ok (release precedence output pending).output := by
  induction pending generalizing output with
  | nil => exact h
  | cons p pending ih =>
      cases p with
      | paren pos => exact h
      | op o pos =>
          unfold release
          split
          · refine ih ?_
            intro o' h'
            rcases List.mem_cons.1 h' with heq | hmem
            · cases heq
            · exact h o' hmem
          · exact h

theorem within_closeParen {y closed : Yard} {pos : Position} (hy : Entry.Within ok y.output)
    (h : y.closeParen pos = .ok closed) : Entry.Within ok closed.output := by
  unfold closeParen at h
  dsimp only at h
  split at h
  · cases h
    exact within_release 0 y.pending hy
  · cases h

theorem within_finish {y : Yard} {entries : List Entry} (hy : Entry.Within ok y.output)
    (h : y.finish = .ok entries) : Entry.Within ok entries := by
  unfold finish at h
  dsimp only at h
  split at h
  · cases h
  · cases h
    intro o ho
    exact within_release 0 y.pending hy o (List.mem_reverse.1 ho)

theorem kind_closeParen {y : Yard} {pos : Position} {e : Error} (h : y.closeParen pos = .error e) :
    e.cause.kind = .mismatchedParentheses := by
  unfold closeParen at h
  dsimp only at h
  split at h
  · cases h
  · cases h
    rfl

theorem kind_finish {y : Yard} {e : Error} (h : y.finish = .error e) :
    e.cause.kind = .mismatchedParentheses := by
  unfold finish at h
  dsimp only at h
  split at h
  · cases h
    rfl
  · cases h

end Yard

/-- The only failure of an operator is a division by zero. -/
theorem Operator.kind_apply {o : Operator} {a b : Value} {cause : Cause}
    (h : o.apply a b = .error cause) : cause.kind = .divisionByZero := by
  cases o <;> simp only [apply, Value.div, Value.rem, reduceCtorEq] at h <;> split at h <;> cases h
  all_goals rfl

namespace Upheld

variable {inv : Session → Prop} {may : Failure → Prop} {ok : Reference → Prop}

theorem upholds_applyTo (h : Upheld inv may ok) (o : Operator) (pos : Position) {a : Operand}
    (b : Operand) (ha : a.Within ok) :
    Exec.Upholds inv may (Operand.Within ok) (Entry.applyTo o pos a b) := by
  unfold Entry.applyTo
  cases hv : o.apply a.value b.value with
  | error cause =>
      refine Exec.Upholds.throw (h.error _ ?_)
      rw [Cause.located, Operator.kind_apply hv]
      decide
  | ok v =>
      have hdone : Exec.Upholds inv may (Operand.Within ok) (pure { a with value := v }) :=
        Exec.Upholds.pure ha
      dsimp only
      split
      · split
        · rename_i slot hsource
          exact (h.upholds_write (ha slot hsource) v).bind fun _ _ => hdone
        · exact hdone
      · exact hdone

theorem upholds_run (h : Upheld inv may ok) {stack : List Operand} {entries : List Entry}
    (hstack : ∀ o ∈ stack, o.Within ok) (hentries : Entry.Within ok entries) :
    Exec.Upholds inv may (fun _ => True) (Entry.run stack entries) := by
  induction entries generalizing stack with
  | nil =>
      rw [Entry.run]
      exact Exec.Upholds.pure trivial
  | cons entry entries ih =>
      have hrest : Entry.Within ok entries := fun o ho => hentries o (List.mem_cons_of_mem _ ho)
      cases entry with
      | operand o =>
          rw [Entry.run]
          refine ih ?_ hrest
          intro o' ho'
          rcases List.mem_cons.1 ho' with rfl | hmem
          · exact hentries o' List.mem_cons_self
          · exact hstack o' hmem
      | op o pos =>
          have hmissing : may (.error ((Cause.missingOperand o).located pos)) :=
            h.error _ (by simp [Cause.located, Cause.kind])
          cases stack with
          | nil => exact Exec.Upholds.throw hmissing
          | cons b stack =>
              cases stack with
              | nil => exact Exec.Upholds.throw hmissing
              | cons a stack =>
                  rw [Entry.run]
                  refine (h.upholds_applyTo o pos b (hstack a (by simp))).bind ?_
                  intro result hresult
                  refine ih ?_ hrest
                  intro o' ho'
                  rcases List.mem_cons.1 ho' with rfl | hmem
                  · exact hresult
                  · exact hstack o' (by simp [hmem])

theorem upholds_evaluate (h : Upheld inv may ok) (pos : Position) {entries : List Entry}
    (hentries : Entry.Within ok entries) :
    Exec.Upholds inv may (fun _ => True) (Entry.evaluate pos entries) := by
  refine (h.upholds_run (by simp) hentries).bind ?_
  intro stack _
  have hleaves : may (.error ((Cause.leavesValues stack.length).located pos)) :=
    h.error _ (by simp [Cause.located, Cause.kind])
  cases stack with
  | nil => exact Exec.Upholds.throw hleaves
  | cons o stack =>
      cases stack with
      | nil => exact Exec.Upholds.pure trivial
      | cons o' stack => exact Exec.Upholds.throw hleaves

end Upheld

/-! ### Programs -/

section Programs

variable {inv : Session → Prop} {may : Failure → Prop} {ok : Reference → Prop} {call : Caller}

/-- What upholding means for the four kinds of syntax that make up expressions. They are
defined by each other, so they are proved together. -/
theorem upholds_terms_items_expr_arguments (h : Upheld inv may ok)
    (hcall : call.Upholds inv may ok) :
    (∀ start yard ts, inv start → Entry.Within ok yard.output →
        (∀ r ∈ termReferences ts, ok r) →
        Exec.Upholds inv may (fun y : Yard => Entry.Within ok y.output)
          (sortTerms call start yard ts)) ∧
      (∀ items, (∀ r ∈ itemReferences items, ok r) →
        Exec.Upholds inv may (fun _ => True) (evalItems call items)) ∧
      (∀ e : Expr, (∀ r ∈ e.references, ok r) →
        Exec.Upholds inv may (fun _ => True) (evalExpr call e)) ∧
      ∀ args, (∀ r ∈ argumentReferences args, ok r) →
        Exec.Upholds inv may (Source.Within (ok <| .cell ·)) (evalArguments call args) := by
  apply sortTerms.mutual_induct
  case case1 =>
    intro terms pos ih hterms
    rw [evalExpr]
    refine Exec.Upholds.get_bind ?_
    intro start hstart
    refine (Exec.Upholds.forM ?_).bind ?_
    · intro slot hslot
      exact (h.upholds_readIn hstart (hterms _ (mem_termReferences hslot))).discard
    · intro _ _
      refine (ih start hstart (Entry.within_nil ok) hterms).bind ?_
      intro yard hyard
      refine (h.upholds_ofExcept (fun _ => Yard.within_finish hyard) ?_).bind ?_
      · intro e he
        rw [Yard.kind_finish he]
        decide
      · intro entries hentries
        exact h.upholds_evaluate pos hentries
  case case2 =>
    intro _
    rw [evalArguments]
    exact Exec.Upholds.pure (Source.within_nil _)
  case case3 =>
    intro slot args ih hrefs
    rw [argumentReferences, List.forall_mem_cons] at hrefs
    rw [evalArguments]
    refine (h.upholds_read hrefs.1).discard.bind fun _ _ => ?_
    exact (ih hrefs.2).bind fun sources hsources => Exec.Upholds.pure (hsources.cell hrefs.1)
  case case4 =>
    intro v args ih hrefs
    rw [argumentReferences] at hrefs
    rw [evalArguments]
    exact (ih hrefs).bind fun sources hsources => Exec.Upholds.pure (hsources.value v)
  case case5 =>
    intro e args ihe ih hrefs
    rw [argumentReferences, List.forall_mem_append] at hrefs
    rw [evalArguments]
    refine (ihe hrefs.1).bind fun v _ => ?_
    exact (ih hrefs.2).bind fun sources hsources => Exec.Upholds.pure (hsources.value v)
  case case6 =>
    intro _
    rw [evalItems]
    exact Exec.Upholds.pure trivial
  case case7 =>
    intro e es ihe ih hrefs
    rw [itemReferences, List.forall_mem_append] at hrefs
    rw [evalItems]
    exact (ihe hrefs.1).bind fun v _ => (ih hrefs.2).bind fun vs _ => Exec.Upholds.pure trivial
  case case8 =>
    intro start yard _ hyard _
    rw [sortTerms]
    exact Exec.Upholds.pure hyard
  case case9 =>
    intro start yard v ts ih hstart hyard hrefs
    rw [termReferences] at hrefs
    rw [sortTerms]
    exact ih hstart (Yard.within_operand hyard (Operand.within_none ok v)) hrefs
  case case10 =>
    intro start yard slot ts ih hstart hyard hrefs
    rw [termReferences, List.forall_mem_cons] at hrefs
    rw [sortTerms]
    refine (h.upholds_readIn hstart hrefs.1).bind fun v _ => ?_
    exact ih v hstart (Yard.within_operand hyard (Operand.within_some hrefs.1 v)) hrefs.2
  case case11 =>
    intro start yard function name args pos ts ihargs ih hstart hyard hrefs
    rw [termReferences, List.forall_mem_cons, List.forall_mem_append] at hrefs
    rw [sortTerms]
    refine (ihargs hrefs.2.1).bind fun sources hsources => ?_
    refine (hcall function sources (some pos) hrefs.1 hsources).bind fun frame _ => ?_
    exact ih frame hstart (Yard.within_operand hyard (Operand.within_none ok _)) hrefs.2.2
  case case12 =>
    intro start yard items ts ihitems ih hstart hyard hrefs
    rw [termReferences, List.forall_mem_append] at hrefs
    rw [sortTerms]
    refine (ihitems hrefs.1).bind fun vs _ => ?_
    exact ih vs hstart (Yard.within_operand hyard (Operand.within_none ok _)) hrefs.2
  case case13 =>
    intro start yard o pos ts ih hstart hyard hrefs
    rw [termReferences] at hrefs
    rw [sortTerms]
    exact ih hstart (Yard.within_release o.precedence yard.pending hyard) hrefs
  case case14 =>
    intro start yard pos ts ih hstart hyard hrefs
    rw [termReferences] at hrefs
    rw [sortTerms]
    exact ih hstart hyard hrefs
  case case15 =>
    intro start yard pos ts ih hstart hyard hrefs
    rw [termReferences] at hrefs
    rw [sortTerms]
    refine (h.upholds_ofExcept (fun _ => Yard.within_closeParen hyard) ?_).bind ?_
    · intro e he
      rw [Yard.kind_closeParen he]
      decide
    · intro closed hclosed
      exact ih closed hstart hclosed hrefs

/-- The value of an expression is found without breaking what is upheld. -/
theorem upholds_evalExpr (h : Upheld inv may ok) (hcall : call.Upholds inv may ok) {e : Expr}
    (he : ∀ r ∈ e.references, ok r) : Exec.Upholds inv may (fun _ => True) (evalExpr call e) :=
  (upholds_terms_items_expr_arguments h hcall).2.2.1 e he

theorem upholds_repeatWhile (hfuel : may .outOfFuel) (label : Nat) {test : Exec Value}
    {body : Exec Signal} (htest : Exec.Upholds inv may (fun _ => True) test)
    (hbody : Exec.Upholds inv may (fun _ => True) body) (fuel : Nat) :
    Exec.Upholds inv may (fun _ => True) (repeatWhile label test body fuel) := by
  induction fuel with
  | zero => exact Exec.Upholds.throw hfuel
  | succ fuel ih =>
      rw [repeatWhile]
      refine htest.bind fun v _ => ?_
      split
      · refine hbody.bind fun signal _ => ?_
        split
        · exact ih
        · exact Exec.Upholds.pure trivial
      · exact Exec.Upholds.pure trivial

theorem upholds_repeatEach (label : Nat) {assign : Value → Exec Unit} {body : Exec Signal}
    (hassign : ∀ v, Exec.Upholds inv may (fun _ => True) (assign v))
    (hbody : Exec.Upholds inv may (fun _ => True) body) (vs : List Value) :
    Exec.Upholds inv may (fun _ => True) (repeatEach label assign body vs) := by
  induction vs with
  | nil => exact Exec.Upholds.pure trivial
  | cons v vs ih =>
      rw [repeatEach]
      refine (hassign v).bind fun _ _ => ?_
      refine hbody.bind fun signal _ => ?_
      split
      · exact ih
      · exact Exec.Upholds.pure trivial

theorem upholds_execStmt_execBlock (h : Upheld inv may ok) (hcall : call.Upholds inv may ok)
    (fuel : Nat) :
    (∀ stmt : Stmt, (∀ r ∈ stmt.references, ok r) → (stmt.hasWhile → may .outOfFuel) →
        Exec.Upholds inv may (fun _ => True) (execStmt call fuel stmt)) ∧
      ∀ stmts, (∀ r ∈ blockReferences stmts, ok r) → (blockHasWhile stmts → may .outOfFuel) →
        Exec.Upholds inv may (fun _ => True) (execBlock call fuel stmts) := by
  apply execStmt.mutual_induct
  case case1 =>
    intro e hrefs _
    rw [Stmt.references] at hrefs
    rw [execStmt]
    exact (upholds_evalExpr h hcall hrefs).discard.bind fun _ _ => Exec.Upholds.pure trivial
  case case2 =>
    intro test body ih hrefs hfuel
    rw [Stmt.references, List.forall_mem_append] at hrefs
    rw [Stmt.hasWhile] at hfuel
    rw [execStmt]
    refine (upholds_evalExpr h hcall hrefs.1).bind fun v _ => ?_
    split
    · exact ih hrefs.2 hfuel
    · exact Exec.Upholds.pure trivial
  case case3 =>
    intro label test body ih hrefs hfuel
    rw [Stmt.references, List.forall_mem_append] at hrefs
    have hfuel : may .outOfFuel := hfuel (by rw [Stmt.hasWhile])
    rw [execStmt]
    exact upholds_repeatWhile hfuel label (upholds_evalExpr h hcall hrefs.1)
      (ih hrefs.2 fun _ => hfuel) fuel
  case case4 =>
    intro label vars items body ih hrefs hfuel
    rw [Stmt.references, List.forall_mem_append, List.forall_mem_append] at hrefs
    rw [Stmt.hasWhile] at hfuel
    rw [execStmt]
    refine (upholds_evalExpr h hcall hrefs.2.1).bind fun v _ => ?_
    refine upholds_repeatEach label (fun item => Exec.Upholds.forM ?_) (ih hrefs.2.2 hfuel)
      v.elements
    intro slot hslot
    exact h.upholds_write (hrefs.1 _ (List.mem_map_of_mem hslot)) item
  case case10 =>
    intro _ _
    rw [execBlock]
    exact Exec.Upholds.pure trivial
  case case11 =>
    intro stmt stmts ihstmt ih hrefs hfuel
    rw [blockReferences, List.forall_mem_append] at hrefs
    have hstmt : stmt.hasWhile → may .outOfFuel :=
      fun hw => hfuel (by rw [blockHasWhile, hw, Bool.true_or])
    have hstmts : blockHasWhile stmts → may .outOfFuel :=
      fun hw => hfuel (by rw [blockHasWhile, hw, Bool.or_true])
    rw [execBlock]
    refine (ihstmt hrefs.1 hstmt).bind fun signal _ => ?_
    cases signal with
    | next => exact ih hrefs.2 hstmts
    | breakLoop label => exact Exec.Upholds.pure trivial
    | continueLoop label => exact Exec.Upholds.pure trivial
    | returnNow => exact Exec.Upholds.pure trivial
  all_goals
    intros
    rw [execStmt]
    exact Exec.Upholds.pure trivial

/-- A block is run without breaking what is upheld. -/
theorem upholds_execBlock (h : Upheld inv may ok) (hcall : call.Upholds inv may ok)
    (fuel : Nat) {stmts : List Stmt} (hstmts : ∀ r ∈ blockReferences stmts, ok r)
    (hfuel : blockHasWhile stmts → may .outOfFuel) :
    Exec.Upholds inv may (fun _ => True) (execBlock call fuel stmts) :=
  (upholds_execStmt_execBlock h hcall fuel).2 stmts hstmts hfuel

end Programs

end Scriptlet
