import Scriptlet.Proofs.Expression.Malformed

/-!
# An assignment around an expression

An operator changes a value on its way through the expression, and only an assignment writes to
a cell. So an expression without calls and assignments changes nothing, well-formed or not
(`silent_terms_items_expr`). The main statement is `evalExpr_assignsLast`: if the outermost
operator is the only assignment, it is applied last of all, so it alone decides about the
session. It writes to the cell of the leftmost variable, or to none if there is no variable.
-/

namespace Scriptlet

mutual

/-- Whether there is neither a call nor an assignment among the terms, at any depth. -/
def termsQuiet : List Term → Bool
  | [] => true
  | .literal _ :: ts => termsQuiet ts
  | .slot _ :: ts => termsQuiet ts
  | .call .. :: _ => false
  | .array items :: ts => itemsQuiet items && termsQuiet ts
  | .op o _ :: ts => !o.isAssignment && termsQuiet ts
  | .openParen _ :: ts => termsQuiet ts
  | .closeParen _ :: ts => termsQuiet ts

/-- Whether there is neither a call nor an assignment in an expression. -/
def Expr.quiet : Expr → Bool
  | .mk terms _ => termsQuiet terms

/-- Whether there is neither a call nor an assignment in the elements of an array. -/
def itemsQuiet : List Expr → Bool
  | [] => true
  | e :: es => e.quiet && itemsQuiet es

end

theorem countP_of_termsQuiet {ts : List Term} (h : termsQuiet ts) :
    ts.countP (Term.isOperator Operator.isAssignment) = 0 := by
  induction ts with
  | nil => rfl
  | cons t ts ih => cases t <;> simp_all [termsQuiet]

/-! ### Actions without effects -/

/-- Whether an action leaves the session `s` as it is, also if it fails. -/
abbrev Exec.Silent {α : Type} (s : Session) (x : Exec α) : Prop :=
  Exec.Upholds (· = s) (fun _ => True) (fun _ => True) x

theorem Exec.Upholds.yields {α : Type} {inv : Session → Prop} {may : Failure → Prop}
    {result fact : α → Prop} {x : Exec α} (h : Upholds inv may result x) (hx : Yields x fact) :
    Upholds inv may fact x :=
  fun s hs => ((h s hs).eq_ok).mono (fun _ _ ha => ⟨ha.2.1, hx.of_ok ha.1⟩) fun _ _ he => he

namespace Entry

theorem silent_applyTo {o : Operator} (ho : o.isAssignment = false) (s : Session)
    (pos : Position) (a b : Operand) : Exec.Silent s (applyTo o pos a b) := by
  unfold applyTo
  cases o.apply a.value b.value with
  | error cause => exact Exec.Upholds.throw trivial
  | ok v =>
      simp only [ho]
      exact Exec.Upholds.pure trivial

theorem silent_run {stack : List Operand} {entries : List Entry}
    (h : entries.countP (isOperator Operator.isAssignment) = 0) (s : Session) :
    Exec.Silent s (run stack entries) := by
  fun_induction run stack entries with
  | case1 stack => exact Exec.Upholds.pure trivial
  | case2 stack o entries ih => exact ih (by simpa using h)
  | case3 b a stack o pos entries ih =>
      cases ho : o.isAssignment with
      | true =>
          have hassigns : isOperator Operator.isAssignment (op o pos) = true := ho
          rw [List.countP_cons_of_pos hassigns] at h
          cases h
      | false =>
          rw [List.countP_cons_of_neg (by simp [ho])] at h
          exact (silent_applyTo ho s pos a b).bind fun result _ => ih result h
  | case4 stack o pos entries hfew => exact Exec.Upholds.throw trivial

theorem silent_evaluate {entries : List Entry}
    (h : entries.countP (isOperator Operator.isAssignment) = 0) (s : Session) (pos : Position) :
    Exec.Silent s (evaluate pos entries) := by
  refine (silent_run h s).bind fun stack _ => ?_
  split
  · exact Exec.Upholds.pure trivial
  · exact Exec.Upholds.throw trivial

end Entry

theorem Exec.silent_readIn (s start : Session) (slot : Slot) :
    Silent s (readIn start slot) := by
  unfold readIn
  cases start.cell slot with
  | ok v => exact Upholds.pure trivial
  | error p => exact Upholds.throw trivial

theorem Exec.silent_ofExcept {α : Type} (s : Session) (x : Except Error α) :
    Silent s (ofExcept x) := by
  cases x with
  | ok a => exact Upholds.pure trivial
  | error e => exact Upholds.throw trivial

/-- An expression without calls and assignments, of any terms, leaves the session as it is. -/
theorem silent_terms_items_expr (call : Caller) (s : Session) :
    (∀ start yard ts, termsQuiet ts → Exec.Silent s (sortTerms call start yard ts)) ∧
      (∀ items, itemsQuiet items → Exec.Silent s (evalItems call items)) ∧
      (∀ e : Expr, e.quiet → Exec.Silent s (evalExpr call e)) ∧
      ∀ _ : List Argument, True := by
  apply sortTerms.mutual_induct
  case case1 =>
    intro terms pos ih hquiet
    rw [evalExpr]
    refine Exec.Upholds.get_bind fun start _ => ?_
    refine (Exec.Upholds.forM fun slot _ => (Exec.silent_readIn s start slot).discard).bind ?_
    intro _ _
    refine ((ih start hquiet).yields (takes_sortTerms call start .empty terms)).bind ?_
    intro sorted hsorted
    cases hfinish : sorted.finish with
    | error e => exact Exec.Upholds.throw trivial
    | ok entries =>
        have hcount : entries.countP (Entry.isOperator Operator.isAssignment) = 0 := by
          rw [(Yard.counts_of_finish hfinish).2, hsorted.operators, countP_of_termsQuiet hquiet]
          rfl
        exact Entry.silent_evaluate hcount s pos
  case case6 =>
    intro _
    rw [evalItems]
    exact Exec.Upholds.pure trivial
  case case7 =>
    intro e es ihe ih hquiet
    rw [itemsQuiet, Bool.and_eq_true] at hquiet
    rw [evalItems]
    refine (ihe hquiet.1).bind fun v _ => (ih hquiet.2).bind fun vs _ => ?_
    exact Exec.Upholds.pure trivial
  case case8 =>
    intro start yard _
    rw [sortTerms]
    exact Exec.Upholds.pure trivial
  case case9 =>
    intro start yard v ts ih hquiet
    rw [sortTerms]
    exact ih hquiet
  case case10 =>
    intro start yard slot ts ih hquiet
    rw [sortTerms]
    exact (Exec.silent_readIn s start slot).bind fun v _ => ih v hquiet
  case case11 =>
    intro start yard function name args pos ts _ _ hquiet
    cases hquiet
  case case12 =>
    intro start yard items ts ihitems ih hquiet
    rw [termsQuiet, Bool.and_eq_true] at hquiet
    rw [sortTerms]
    exact (ihitems hquiet.1).bind fun vs _ => ih vs hquiet.2
  case case13 =>
    intro start yard o pos ts ih hquiet
    rw [termsQuiet, Bool.and_eq_true] at hquiet
    rw [sortTerms]
    exact ih hquiet.2
  case case14 =>
    intro start yard pos ts ih hquiet
    rw [sortTerms]
    exact ih hquiet
  case case15 =>
    intro start yard pos ts ih hquiet
    rw [sortTerms]
    exact (Exec.silent_ofExcept s _).bind fun closed _ => ih closed hquiet
  all_goals
    intros
    trivial

/-! ### The outermost operator -/

namespace Grouping

variable {α β : Type}

/-- The leftmost leaf. -/
def first : Grouping α → α
  | leaf a => a
  | paren _ _ g => g.first
  | node _ _ l _ => l.first

/-- Whether all leaves satisfy `p`. -/
def All (p : α → Prop) : Grouping α → Prop
  | leaf a => p a
  | paren _ _ g => g.All p
  | node _ _ l r => l.All p ∧ r.All p

/-- Whether none of the operators is an assignment. -/
def NoAssignment : Grouping α → Prop
  | leaf _ => True
  | paren _ _ g => g.NoAssignment
  | node o _ l r => o.isAssignment = false ∧ l.NoAssignment ∧ r.NoAssignment

/-- Whether the outermost operator is an assignment, and no other is. -/
def AssignsLast : Grouping α → Prop
  | leaf _ => False
  | paren _ _ g => g.AssignsLast
  | node o _ l r => o.isAssignment = true ∧ l.NoAssignment ∧ r.NoAssignment

theorem noAssignment_shape (g : Grouping α) : g.shape.NoAssignment ↔ g.NoAssignment := by
  induction g with
  | leaf a => rfl
  | paren opening closing g ih => exact ih
  | node o pos l r ihl ihr => exact and_congr_right fun _ => and_congr ihl ihr

theorem assignsLast_shape (g : Grouping α) : g.shape.AssignsLast ↔ g.AssignsLast := by
  induction g with
  | leaf a => rfl
  | paren opening closing g ih => exact ih
  | node o pos l r _ _ =>
      exact and_congr_right fun _ => and_congr (noAssignment_shape l) (noAssignment_shape r)

theorem AssignsLast.of_shape {g : Grouping α} {h : Grouping β} (hg : g.AssignsLast)
    (hshape : h.shape = g.shape) : h.AssignsLast := by
  rw [← assignsLast_shape, hshape, assignsLast_shape]
  exact hg

/-- Without assignments nothing is written. The result keeps the source of the leftmost
operand. -/
theorem after_evaluate_noAssignment {g : Grouping Operand} (h : g.NoAssignment) (s : Session) :
    After g.evaluate s (fun o t => t = s ∧ o.source? = g.first.source?) fun _ t => t = s := by
  induction g with
  | leaf o => exact ⟨rfl, rfl⟩
  | paren opening closing g ih => exact ih h
  | node o pos l r ihl ihr =>
      obtain ⟨ho, hl, hr⟩ := h
      rw [evaluate, after_bind]
      refine (ihl hl).mono ?_ fun _ _ ht => ht
      rintro a _ ⟨rfl, ha⟩
      rw [after_bind]
      refine (ihr hr).mono ?_ fun _ _ ht => ht
      rintro b t ⟨rfl, -⟩
      cases o.apply a.value b.value with
      | error cause => rfl
      | ok v =>
          simp only [ho]
          exact ⟨rfl, ha⟩

/-- An assignment that is applied last writes the result to the source of the leftmost
operand. -/
theorem after_evaluate_assignsLast {g : Grouping Operand} (h : g.AssignsLast) (s : Session) :
    After g.evaluate s
      (fun o t => match g.first.source? with
        | some slot => s.Has slot ∧ t = s.setCell slot o.value
        | none => t = s)
      fun _ t => t = s := by
  induction g with
  | leaf o => cases h
  | paren opening closing g ih => exact ih h
  | node o pos l r _ _ =>
      obtain ⟨ho, hl, hr⟩ := h
      rw [evaluate, after_bind]
      refine (after_evaluate_noAssignment hl s).mono ?_ fun _ _ ht => ht
      rintro a _ ⟨rfl, ha⟩
      rw [after_bind]
      refine (after_evaluate_noAssignment hr _).mono ?_ fun _ _ ht => ht
      rintro b t ⟨rfl, -⟩
      cases o.apply a.value b.value with
      | error cause => rfl
      | ok v =>
          simp only [ho, first, ← ha]
          cases a.source? with
          | none => rfl
          | some slot =>
              dsimp only
              rw [after_bind, Exec.write, after_bind, Exec.read, after_bind, after_get,
                Exec.readIn]
              cases hcell : t.cell slot with
              | error p => rfl
              | ok w => exact ⟨Session.has_iff.2 ⟨w, hcell⟩, rfl⟩

end Grouping

namespace Leaf

/-- Whether there is neither a call nor an assignment in a leaf. -/
def Quiet : Leaf → Prop
  | literal _ => True
  | slot _ => True
  | call .. => False
  | array items => itemsQuiet items

/-- The slot that a leaf reads. -/
def source? : Leaf → Option Slot
  | slot s => some s
  | _ => none

theorem after_operand {l : Leaf} (hl : l.Quiet) (call : Caller) (start s : Session) :
    After (l.operand call start) s (fun o t => t = s ∧ o.source? = l.source?) fun _ t => t = s := by
  cases l with
  | literal v => exact ⟨rfl, rfl⟩
  | slot slot =>
      rw [operand, after_bind]
      refine (Exec.silent_readIn s start slot s rfl).mono ?_ fun _ _ ht => ht.1
      rintro v t ⟨rfl, -⟩
      exact ⟨rfl, rfl⟩
  | call function name args pos => cases hl
  | array items =>
      rw [operand, after_bind]
      refine ((silent_terms_items_expr call s).2.1 items hl s rfl).mono ?_ fun _ _ ht => ht.1
      rintro vs t ⟨rfl, -⟩
      exact ⟨rfl, rfl⟩

end Leaf

theorem Grouping.after_mapM_operand {g : Grouping Leaf} (hg : g.All Leaf.Quiet) (call : Caller)
    (start s : Session) :
    After (g.mapM (Leaf.operand call start)) s
      (fun os t => t = s ∧ os.first.source? = g.first.source?) fun _ t => t = s := by
  induction g with
  | leaf l =>
      rw [mapM, after_bind]
      exact (Leaf.after_operand hg call start s).mono (fun _ _ h => h) fun _ _ ht => ht
  | paren opening closing g ih =>
      rw [mapM, after_bind]
      exact (ih hg).mono (fun _ _ h => h) fun _ _ ht => ht
  | node o pos l r ihl ihr =>
      rw [mapM, after_bind]
      refine (ihl hg.1).mono ?_ fun _ _ ht => ht
      rintro ol _ ⟨rfl, hol⟩
      rw [after_bind]
      refine (ihr hg.2).mono ?_ fun _ _ ht => ht
      rintro or t ⟨rfl, -⟩
      exact ⟨rfl, hol⟩

/-- The value of the terms of a grouping, where variables have the value they had in `s`. -/
theorem sortTerms_evaluate (call : Caller) (s : Session) (pos : Position) {g : Grouping Leaf}
    (hg : g.Grouped) :
    (sortTerms call s .empty g.terms >>= fun yard =>
        Exec.ofExcept yard.finish >>= Entry.evaluate pos) =
      (g.mapM (Leaf.operand call s) >>= fun os => os.evaluate >>= fun o => pure o.value) := by
  have hwait : g.Binds (Yard.Waits · Yard.empty.pending) :=
    Grouping.binds_of_forall (fun _ => trivial) g
  rw [← List.append_nil g.terms, sortTerms_terms call s hg hwait, bind_assoc]
  refine Grouping.mapM_bind_congr fun os hos => ?_
  have hrun := run_entries os [] []
  rw [List.append_nil] at hrun
  rw [sortTerms, pure_bind, Yard.finish_absorb (hg.of_shape hos), Exec.ofExcept, pure_bind,
    Entry.evaluate, hrun, bind_assoc]
  rfl

/-- An expression without calls, in which the outermost operator is the only assignment. If it
fails, the session is as before. If it has a value, the session is as before but for the cell
of the leftmost term, which holds this value, if that is a variable. -/
theorem evalExpr_assignsLast (call : Caller) {e : Expr} {g : Grouping Leaf} (hg : g.Grouped)
    (hterms : g.terms = e.terms) (hleaves : g.All Leaf.Quiet) (hassigns : g.AssignsLast)
    (s : Session) :
    After (evalExpr call e) s
      (fun v t => match g.first with
        | .slot slot => t = s.setCell slot v ∧ t.cell slot = .ok v ∧
            t.frames.tail = s.frames.tail ∧
            ∀ other, slot.same other = false → t.cell other = s.cell other
        | _ => t = s)
      fun _ t => t = s := by
  obtain hprobe | ⟨failure, hprobe⟩ := probe_run s s (Term.slots e.terms)
  · unfold After
    rw [evalExpr_probe, bind_of_ok hprobe, ← hterms, sortTerms_evaluate call s e.pos hg]
    change After _ s _ _
    rw [after_bind]
    refine (Grouping.after_mapM_operand hleaves call s s).eq_ok.mono ?_ fun _ _ ht => ht
    rintro os t ⟨hos, rfl, hfirst⟩
    rw [after_bind]
    have hlast := hassigns.of_shape (Grouping.shape_mapM hos)
    refine (Grouping.after_evaluate_assignsLast hlast t).mono ?_ fun _ _ ht => ht
    intro o u hu
    rw [hfirst] at hu
    rw [after_pure]
    cases hleaf : g.first with
    | slot slot =>
        rw [hleaf] at hu
        obtain ⟨hhas, rfl⟩ := hu
        refine ⟨rfl, ?_, (t.kept_setCell slot o.value).outer, ?_⟩
        · rw [Session.cell_setCell hhas, if_pos slot.same_self]
        · intro other hother
          rw [Session.cell_setCell hhas, if_neg (by simp [hother])]
    | literal v => rwa [hleaf] at hu
    | call function name args pos => rwa [hleaf] at hu
    | array items => rwa [hleaf] at hu
  · unfold After
    rw [evalExpr_probe, bind_of_error hprobe]

/-- The grouping of `x -= (2 + 1) * 2`. -/
def decrease : Grouping Leaf :=
  .node .subSet ⟨1, 3, 2⟩ (.leaf (.slot (.global 0 "x")))
    (.node .mul ⟨1, 14, 13⟩
      (.paren ⟨1, 6, 5⟩ ⟨1, 12, 11⟩
        (.node .add ⟨1, 9, 8⟩ (.leaf (.literal (.int 2))) (.leaf (.literal (.int 1)))))
      (.leaf (.literal (.int 2))))

theorem evalExpr_assignsLast_decrease :
    decrease.Grouped ∧ decrease.All Leaf.Quiet ∧ decrease.AssignsLast ∧
      ∃ t, evalExpr (invoke 0 maxFrames) (.mk decrease.terms ⟨1, 1, 0⟩) setBothSession =
          .ok (.int 1) t ∧
        t = setBothSession.setCell (.global 0 "x") (.int 1) := by
  have hgrouped : decrease.Grouped := by
    simp [decrease, Grouping.Grouped, Grouping.Binds, Operator.precedence]
  have hleaves : decrease.All Leaf.Quiet := by simp [decrease, Grouping.All, Leaf.Quiet]
  have hassigns : decrease.AssignsLast := by
    simp [decrease, Grouping.AssignsLast, Grouping.NoAssignment, Operator.isAssignment]
  obtain ⟨t, hend⟩ : ∃ t, evalExpr (invoke 0 maxFrames) (.mk decrease.terms ⟨1, 1, 0⟩)
      setBothSession = .ok (.int 1) t := ⟨_, rfl⟩
  have hafter := evalExpr_assignsLast (invoke 0 maxFrames) (e := .mk decrease.terms ⟨1, 1, 0⟩)
    hgrouped rfl hleaves hassigns setBothSession
  exact ⟨hgrouped, hleaves, hassigns, t, hend, (hafter.of_ok hend).1⟩

end Scriptlet
