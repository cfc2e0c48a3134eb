import Scriptlet.Proofs.Parsing.Reading
import Scriptlet.Proofs.Program.Recast
import Scriptlet.Proofs.Session.Upkeep

/-!
# Running recast programs

Running a recast program in a recast session does what running the program does: it gives
the same values, fails for the same reason and leaves the recast session. The main
statements are `recasts_evalExpr`, `recasts_execBlock` and `recasts_invoke`. They follow the
definition of running, by one rule for each way to put an action together.

There is one thing to watch. An access to a global that is not there reports the index, so
with more globals all indices in use have to be in range (`Recast.Ranged`).
-/

namespace Scriptlet

namespace Recast

variable {τ : Recast} {k : Nat}

/-- Whether two failures are the same up to places. What a function of the host fails with is
passed on as it is. -/
def Same (τ : Recast) (e e' : Failure) : Prop :=
  e' = e ∨ e' = τ.failure e

theorem same_refl (e : Failure) : τ.Same e e := .inl rfl

theorem same_failure (e : Failure) : τ.Same e (τ.failure e) := .inr rfl

/-- Whether a reference is to no global beyond the first `k`. It does not matter if no globals
are added. -/
def Reaches (τ : Recast) (k : Nat) : Reference → Prop
  | .cell (.global i _) => (τ.front = [] ∧ τ.back = []) ∨ i < k
  | _ => True

def BodyReaches (τ : Recast) (k : Nat) : Body → Prop
  | .script stmts => ∀ r ∈ blockReferences stmts, τ.Reaches k r
  | .native _ => True

/-- Whether there are `k` globals, and no body refers to a global beyond them. -/
structure Ranged (τ : Recast) (k : Nat) (s : Session) : Prop where
  globals : s.env.globals.length = k
  bodies : s.env.Bodies (τ.BodyReaches k)

theorem Ranged.modifyFunction {s : Session} (h : τ.Ranged k s) (i : Nat)
    {change : Function → Function} (hbody : ∀ f, (change f).body = f.body) :
    τ.Ranged k (s.modifyFunction i change) := by
  refine ⟨h.globals, h.bodies.modifyFunction fun f hf => ?_⟩
  rw [hbody]
  exact h.bodies f hf

theorem Ranged.setCell {s : Session} (h : τ.Ranged k s) (slot : Slot) (v : Value) :
    τ.Ranged k (s.setCell slot v) := by
  cases slot with
  | global i name =>
      exact ⟨by simpa [Session.setCell] using h.globals, h.bodies⟩
  | param i name => exact ⟨h.globals, h.bodies⟩
  | result name => exact ⟨h.globals, h.bodies⟩
  | last f name => exact h.modifyFunction f fun _ => rfl

/-! ### Cells -/

theorem cell_session {s : Session} {slot : Slot} (hs : τ.Ranged k s)
    (hslot : τ.Reaches k (.cell slot)) : (τ.session s).cell (τ.slot slot) = s.cell slot := by
  cases slot with
  | global i name =>
      have hrange : τ.back = [] ∨ i < s.env.globals.length := hs.globals ▸ hslot.imp_left (·.2)
      have hglobal : (τ.session s).env.global? (i + τ.front.length) = s.env.global? i :=
        global?_env hrange
      simp only [slot, Session.cell, hglobal]
      rcases hslot with ⟨hfront, -⟩ | hi
      · simp [hfront]
      · rw [← hs.globals] at hi
        simp [Environment.global?_eq, hi]
  | last f name =>
      simp only [slot, Session.cell, session, getElem?_functions_env]
      cases s.env.functions[f]? <;> rfl
  | param i name => rfl
  | result name => rfl

theorem modifyFunction_session (s : Session) (i : Nat) {change change' : Function → Function}
    (h : ∀ f, τ.function (change f) = change' (τ.function f)) :
    (τ.session s).modifyFunction i change' = τ.session (s.modifyFunction i change) := by
  simp only [Session.modifyFunction, session, modifyFunction_env s.env i h]

theorem setCell_session {s : Session} {slot : Slot} (hs : τ.Ranged k s)
    (hslot : τ.Reaches k (.cell slot)) (v : Value) :
    (τ.session s).setCell (τ.slot slot) v = τ.session (s.setCell slot v) := by
  cases slot with
  | global i name =>
      have hrange : τ.back = [] ∨ i < s.env.globals.length := hs.globals ▸ hslot.imp_left (·.2)
      simp only [slot, Session.setCell, session, setGlobal_env hrange]
  | last f name => exact modifyFunction_session s f fun _ => rfl
  | param i name => rfl
  | result name => rfl

end Recast

namespace Exec

variable {α β : Type} {τ : Recast} {k : Nat} {f : α → α} {f' : β → β} {result : α → Prop}
  {result' : β → Prop}

/-- Whether `y` does in recast sessions what `x` does. -/
def Recasts (τ : Recast) (k : Nat) (f : α → α) (result : α → Prop) (x y : Exec α) : Prop :=
  ∀ s, τ.Ranged k s →
    After x s
      (fun a t => (τ.Ranged k t ∧ result a) ∧ y (τ.session s) = .ok (f a) (τ.session t))
      fun e t => τ.Ranged k t ∧ ∃ e', τ.Same e e' ∧ y (τ.session s) = .error e' (τ.session t)

theorem Recasts.pure {a b : α} (ha : result a) (hb : b = f a) :
    Recasts τ k f result (pure a) (pure b) := by
  subst hb
  exact fun s hs => ⟨⟨hs, ha⟩, rfl⟩

theorem Recasts.throw {e e' : Failure} (h : τ.Same e e') :
    Recasts τ k f result (throw e) (throw e') :=
  fun _ hs => ⟨hs, e', h, rfl⟩

theorem Recasts.fail (e : Error) : Recasts τ k f result (fail e) (fail (τ.error e)) :=
  Recasts.throw (Recast.same_failure (.error e))

theorem Recasts.bind {x y : Exec α} {next next' : α → Exec β} (hx : Recasts τ k f result x y)
    (hnext : ∀ a, result a → Recasts τ k f' result' (next a) (next' (f a))) :
    Recasts τ k f' result' (x >>= next) (y >>= next') := by
  intro s hs
  rw [after_bind]
  refine (hx s hs).mono ?_ ?_
  · rintro a t ⟨⟨ht, ha⟩, hy⟩
    rw [bind_of_ok hy]
    exact hnext a ha t ht
  · rintro e t ⟨ht, e', he, hy⟩
    exact ⟨ht, e', he, bind_of_error hy⟩

theorem Recasts.discard {x y : Exec α} (hx : Recasts τ k f result x y) :
    Recasts τ k id (fun _ => True) (discard x) (discard y) :=
  hx.bind fun _ _ => Recasts.pure trivial rfl

theorem Recasts.get_bind {next next' : Session → Exec β}
    (h : ∀ s, τ.Ranged k s → Recasts τ k f' result' (next s) (next' (τ.session s))) :
    Recasts τ k f' result' (get >>= next) (get >>= next') :=
  fun s hs => h s hs s hs

theorem Recasts.modify {change change' : Session → Session}
    (hranged : ∀ s, τ.Ranged k s → τ.Ranged k (change s))
    (h : ∀ s, τ.Ranged k s → change' (τ.session s) = τ.session (change s)) :
    Recasts τ k id (fun _ => True) (modify change) (modify change') :=
  fun s hs => ⟨⟨hranged s hs, trivial⟩, congrArg (EStateM.Result.ok _) (h s hs)⟩

theorem Recasts.tryCatch {x y : Exec α} {handle handle' : Failure → Exec α}
    (hx : Recasts τ k f result x y)
    (hhandle : ∀ e e', τ.Same e e' → Recasts τ k f result (handle e) (handle' e')) :
    Recasts τ k f result (tryCatch x handle) (tryCatch y handle') := by
  intro s hs
  rw [after_tryCatch]
  refine (hx s hs).mono ?_ ?_
  · rintro a t ⟨hinv, hy⟩
    exact ⟨hinv, tryCatch_of_ok hy⟩
  · rintro e t ⟨ht, e', he, hy⟩
    rw [tryCatch_of_error hy]
    exact hhandle e e' he t ht

theorem Recasts.forM {α : Type} {g : α → α} {next next' : α → Exec Unit} {xs : List α}
    (h : ∀ a ∈ xs, Recasts τ k id (fun _ => True) (next a) (next' (g a))) :
    Recasts τ k id (fun _ => True) (xs.forM next) ((xs.map g).forM next') := by
  induction xs with
  | nil => exact Recasts.pure trivial rfl
  | cons a xs ih =>
      obtain ⟨ha, hxs⟩ := List.forall_mem_cons.1 h
      simp only [List.map_cons, List.forM_eq_forM, List.forM_cons]
      exact ha.bind fun _ _ => ih hxs

theorem Recasts.mapM {α : Type} {g : α → α} {next next' : α → Exec β} {xs : List α}
    (h : ∀ a ∈ xs, Recasts τ k id (fun _ => True) (next a) (next' (g a))) :
    Recasts τ k id (fun _ => True) (xs.mapM next) ((xs.map g).mapM next') := by
  induction xs with
  | nil => exact Recasts.pure trivial rfl
  | cons a xs ih =>
      obtain ⟨ha, hxs⟩ := List.forall_mem_cons.1 h
      simp only [List.map_cons, List.mapM_cons]
      exact ha.bind fun _ _ => (ih hxs).bind fun _ _ => Recasts.pure trivial rfl

theorem recasts_ofExcept {x y : Except Error α} (hok : ∀ a, x = .ok a → result a ∧ y = .ok (f a))
    (herror : ∀ e, x = .error e → y = .error (τ.error e)) :
    Recasts τ k f result (ofExcept x) (ofExcept y) := by
  cases x with
  | ok a =>
      obtain ⟨ha, rfl⟩ := hok a rfl
      exact Recasts.pure ha rfl
  | error e =>
      rw [herror e rfl]
      exact Recasts.fail e

theorem recasts_readIn {start : Session} {slot : Slot} (hstart : τ.Ranged k start)
    (hslot : τ.Reaches k (.cell slot)) :
    Recasts τ k id (fun _ => True) (readIn start slot)
      (readIn (τ.session start) (τ.slot slot)) := by
  unfold readIn
  rw [Recast.cell_session hstart hslot]
  cases start.cell slot with
  | ok v => exact Recasts.pure trivial rfl
  | error p => exact Recasts.throw (Recast.same_refl _)

theorem recasts_read {slot : Slot} (hslot : τ.Reaches k (.cell slot)) :
    Recasts τ k id (fun _ => True) (read slot) (read (τ.slot slot)) :=
  Recasts.get_bind fun _ hs => recasts_readIn hs hslot

theorem recasts_write {slot : Slot} (hslot : τ.Reaches k (.cell slot)) (v : Value) :
    Recasts τ k id (fun _ => True) (write slot v) (write (τ.slot slot) v) := by
  refine (recasts_read hslot).bind fun _ _ => ?_
  exact Recasts.modify (fun s hs => hs.setCell slot v) fun s hs =>
    Recast.setCell_session hs hslot v

end Exec

/-! ### Sorting and applying operators -/

namespace Recast

variable {τ : Recast} {k : Nat}

def operand (τ : Recast) (o : Operand) : Operand :=
  ⟨o.value, o.source?.map τ.slot⟩

def entry (τ : Recast) : Entry → Entry
  | .operand o => .operand (τ.operand o)
  | .op o pos => .op o (τ.place pos)

def pending (τ : Recast) : Pending → Pending
  | .op o pos => .op o (τ.place pos)
  | .paren pos => .paren (τ.place pos)

def yard (τ : Recast) (y : Yard) : Yard :=
  ⟨y.output.map τ.entry, y.pending.map τ.pending⟩

theorem release_yard (precedence : Nat) (output : List Entry) (waiting : List Pending) :
    Yard.release precedence (output.map τ.entry) (waiting.map τ.pending) =
      τ.yard (Yard.release precedence output waiting) := by
  induction waiting generalizing output with
  | nil => rfl
  | cons p waiting ih =>
      cases p with
      | paren pos => rfl
      | op o pos =>
          simp only [List.map_cons, pending, Yard.release]
          split
          · exact ih (.op o pos :: output)
          · rfl

theorem operator_yard (y : Yard) (o : Operator) (pos : Position) :
    (τ.yard y).operator o (τ.place pos) = τ.yard (y.operator o pos) := by
  simp only [Yard.operator, yard, release_yard]
  rfl

theorem closeParen_yard (y : Yard) (pos : Position) :
    (τ.yard y).closeParen (τ.place pos) = τ.except τ.yard (y.closeParen pos) := by
  have hreleased : Yard.release 0 (τ.yard y).output (τ.yard y).pending =
      τ.yard (Yard.release 0 y.output y.pending) :=
    release_yard 0 y.output y.pending
  unfold Yard.closeParen
  rw [hreleased]
  generalize Yard.release 0 y.output y.pending = released
  obtain ⟨output, waiting⟩ := released
  cases waiting with
  | nil => rfl
  | cons p waiting => cases p <;> rfl

theorem finish_yard (y : Yard) :
    (τ.yard y).finish = τ.except (List.map τ.entry) y.finish := by
  have hreleased : Yard.release 0 (τ.yard y).output (τ.yard y).pending =
      τ.yard (Yard.release 0 y.output y.pending) :=
    release_yard 0 y.output y.pending
  unfold Yard.finish
  rw [hreleased]
  generalize Yard.release 0 y.output y.pending = released
  obtain ⟨output, waiting⟩ := released
  cases waiting with
  | nil => simp [yard, except]
  | cons p waiting => cases p <;> simp [yard, except, pending, error, Cause.located]

def source (τ : Recast) : Source → Source
  | .cell slot => .cell (τ.slot slot)
  | .value v => .value v

theorem slots_terms (ts : List Term) :
    Term.slots (τ.terms ts) = (Term.slots ts).map τ.slot := by
  induction ts with
  | nil => rfl
  | cons t ts ih => cases t <;> simp_all [terms, Term.slots]

end Recast

section Programs

open Recast

variable {τ : Recast} {k : Nat} {call call' : Caller}

theorem recasts_applyTo (o : Operator) (pos : Position) {a : Operand} (b : Operand)
    (ha : a.Within (τ.Reaches k)) :
    Exec.Recasts τ k τ.operand (Operand.Within (τ.Reaches k)) (Entry.applyTo o pos a b)
      (Entry.applyTo o (τ.place pos) (τ.operand a) (τ.operand b)) := by
  have happly : o.apply (τ.operand a).value (τ.operand b).value = o.apply a.value b.value := rfl
  unfold Entry.applyTo
  rw [happly]
  cases o.apply a.value b.value with
  | error cause => exact Exec.Recasts.fail (cause.located pos)
  | ok v =>
      have hdone : Exec.Recasts τ k τ.operand (Operand.Within (τ.Reaches k))
          (pure { a with value := v }) (pure { τ.operand a with value := v }) :=
        Exec.Recasts.pure ha rfl
      obtain ⟨value, source?⟩ := a
      dsimp only
      split
      · cases source? with
        | none => exact hdone
        | some slot => exact (Exec.recasts_write (ha slot rfl) v).bind fun _ _ => hdone
      · exact hdone

theorem recasts_run {stack : List Operand} {entries : List Entry}
    (hstack : ∀ o ∈ stack, o.Within (τ.Reaches k)) (hentries : Entry.Within (τ.Reaches k) entries) :
    Exec.Recasts τ k (List.map τ.operand) (fun _ => True) (Entry.run stack entries)
      (Entry.run (stack.map τ.operand) (entries.map τ.entry)) := by
  induction entries generalizing stack with
  | nil =>
      rw [List.map_nil, Entry.run, Entry.run]
      exact Exec.Recasts.pure trivial rfl
  | cons e entries ih =>
      have hrest : Entry.Within (τ.Reaches k) entries :=
        fun o ho => hentries o (List.mem_cons_of_mem _ ho)
      cases e with
      | operand o =>
          rw [List.map_cons, entry, Entry.run, Entry.run]
          refine ih ?_ hrest
          rw [List.forall_mem_cons]
          exact ⟨hentries o List.mem_cons_self, hstack⟩
      | op o pos =>
          cases stack with
          | nil => exact Exec.Recasts.fail ((Cause.missingOperand o).located pos)
          | cons b stack =>
              cases stack with
              | nil => exact Exec.Recasts.fail ((Cause.missingOperand o).located pos)
              | cons a stack =>
                  simp only [List.forall_mem_cons] at hstack
                  simp only [List.map_cons, entry, Entry.run]
                  refine (recasts_applyTo o pos b hstack.2.1).bind fun result hresult => ?_
                  refine ih ?_ hrest
                  rw [List.forall_mem_cons]
                  exact ⟨hresult, hstack.2.2⟩

theorem recasts_evaluate (pos : Position) {entries : List Entry}
    (hentries : Entry.Within (τ.Reaches k) entries) :
    Exec.Recasts τ k id (fun _ => True) (Entry.evaluate pos entries)
      (Entry.evaluate (τ.place pos) (entries.map τ.entry)) := by
  refine (recasts_run (List.forall_mem_nil _) hentries).bind fun stack _ => ?_
  cases stack with
  | nil => exact Exec.Recasts.fail ((Cause.leavesValues 0).located pos)
  | cons o stack =>
      cases stack with
      | nil => exact Exec.Recasts.pure trivial rfl
      | cons o' stack =>
          simp only [List.map_cons, List.length_cons, List.length_map]
          exact Exec.Recasts.fail ((Cause.leavesValues (stack.length + 1 + 1)).located pos)

/-! ### Programs -/

/-- Whether `call'` does in recast sessions what `call` does. -/
def Caller.Recasts (τ : Recast) (k : Nat) (call call' : Caller) : Prop :=
  ∀ index sources pos?, Source.Within (τ.Reaches k <| .cell ·) sources →
    Exec.Recasts τ k id (fun _ => True) (call index sources pos?)
      (call' index (sources.map τ.source) (pos?.map τ.place))

theorem recasts_terms_items_expr_arguments (hcall : Caller.Recasts τ k call call') :
    (∀ start y ts, τ.Ranged k start → Entry.Within (τ.Reaches k) y.output →
        (∀ r ∈ termReferences ts, τ.Reaches k r) →
        Exec.Recasts τ k τ.yard (fun made : Yard => Entry.Within (τ.Reaches k) made.output)
          (sortTerms call start y ts)
          (sortTerms call' (τ.session start) (τ.yard y) (τ.terms ts))) ∧
      (∀ es, (∀ r ∈ itemReferences es, τ.Reaches k r) →
        Exec.Recasts τ k id (fun _ => True) (evalItems call es) (evalItems call' (τ.items es))) ∧
      (∀ e : Expr, (∀ r ∈ e.references, τ.Reaches k r) →
        Exec.Recasts τ k id (fun _ => True) (evalExpr call e) (evalExpr call' (τ.expr e))) ∧
      ∀ as, (∀ r ∈ argumentReferences as, τ.Reaches k r) →
        Exec.Recasts τ k (List.map τ.source) (Source.Within (τ.Reaches k <| .cell ·))
          (evalArguments call as) (evalArguments call' (τ.arguments as)) := by
  apply sortTerms.mutual_induct
  case case1 =>
    intro ts pos ih hterms
    rw [expr, evalExpr, evalExpr, slots_terms]
    refine Exec.Recasts.get_bind fun start hstart => ?_
    refine Exec.Recasts.bind (Exec.Recasts.forM fun slot hslot => ?_) fun _ _ => ?_
    · exact (Exec.recasts_readIn hstart (hterms _ (mem_termReferences hslot))).discard
    · refine (ih start hstart (Entry.within_nil _) hterms).bind fun y hy => ?_
      refine Exec.Recasts.bind (Exec.recasts_ofExcept ?_ ?_) fun entries hentries =>
        recasts_evaluate pos hentries
      · intro entries hentries
        rw [finish_yard, hentries]
        exact ⟨Yard.within_finish hy hentries, rfl⟩
      · intro e he
        rw [finish_yard, he]
        rfl
  case case2 =>
    intro _
    rw [arguments, evalArguments, evalArguments]
    exact Exec.Recasts.pure (Source.within_nil _) rfl
  case case3 =>
    intro s as ih hrefs
    rw [argumentReferences, List.forall_mem_cons] at hrefs
    rw [arguments, argument, evalArguments, evalArguments]
    refine (Exec.recasts_read hrefs.1).discard.bind fun _ _ => ?_
    exact (ih hrefs.2).bind fun sources hsources =>
      Exec.Recasts.pure (hsources.cell hrefs.1) rfl
  case case4 =>
    intro v as ih hrefs
    rw [argumentReferences] at hrefs
    rw [arguments, argument, evalArguments, evalArguments]
    exact (ih hrefs).bind fun sources hsources => Exec.Recasts.pure (hsources.value v) rfl
  case case5 =>
    intro e as ihe ih hrefs
    rw [argumentReferences, List.forall_mem_append] at hrefs
    rw [arguments, argument, evalArguments, evalArguments]
    refine (ihe hrefs.1).bind fun v _ => ?_
    exact (ih hrefs.2).bind fun sources hsources => Exec.Recasts.pure (hsources.value v) rfl
  case case6 =>
    intro _
    rw [items, evalItems, evalItems]
    exact Exec.Recasts.pure trivial rfl
  case case7 =>
    intro e es ihe ih hrefs
    rw [itemReferences, List.forall_mem_append] at hrefs
    rw [items, evalItems, evalItems]
    exact (ihe hrefs.1).bind fun v _ => (ih hrefs.2).bind fun vs _ =>
      Exec.Recasts.pure trivial rfl
  case case8 =>
    intro start y _ hy _
    rw [terms, sortTerms, sortTerms]
    exact Exec.Recasts.pure hy rfl
  case case9 =>
    intro start y v ts ih hstart hy hrefs
    rw [termReferences] at hrefs
    rw [terms, sortTerms, sortTerms]
    exact ih hstart (Yard.within_operand hy (Operand.within_none _ v)) hrefs
  case case10 =>
    intro start y s ts ih hstart hy hrefs
    rw [termReferences, List.forall_mem_cons] at hrefs
    rw [terms, sortTerms, sortTerms]
    refine (Exec.recasts_readIn hstart hrefs.1).bind fun v _ => ?_
    exact ih v hstart (Yard.within_operand hy (Operand.within_some hrefs.1 v)) hrefs.2
  case case11 =>
    intro start y f name as pos ts ihargs ih hstart hy hrefs
    rw [termReferences, List.forall_mem_cons, List.forall_mem_append] at hrefs
    rw [terms, sortTerms, sortTerms]
    refine (ihargs hrefs.2.1).bind fun sources hsources => ?_
    refine (hcall f sources (some pos) hsources).bind fun frame _ => ?_
    exact ih frame hstart (Yard.within_operand hy (Operand.within_none _ _)) hrefs.2.2
  case case12 =>
    intro start y es ts ihitems ih hstart hy hrefs
    rw [termReferences, List.forall_mem_append] at hrefs
    rw [terms, sortTerms, sortTerms]
    refine (ihitems hrefs.1).bind fun vs _ => ?_
    exact ih vs hstart (Yard.within_operand hy (Operand.within_none _ _)) hrefs.2
  case case13 =>
    intro start y o pos ts ih hstart hy hrefs
    rw [termReferences] at hrefs
    rw [terms, sortTerms, sortTerms, operator_yard]
    exact ih hstart (Yard.within_release o.precedence y.pending hy) hrefs
  case case14 =>
    intro start y pos ts ih hstart hy hrefs
    rw [termReferences] at hrefs
    rw [terms, sortTerms, sortTerms]
    exact ih hstart hy hrefs
  case case15 =>
    intro start y pos ts ih hstart hy hrefs
    rw [termReferences] at hrefs
    rw [terms, sortTerms, sortTerms]
    refine Exec.Recasts.bind (Exec.recasts_ofExcept ?_ ?_) fun closed hclosed =>
      ih closed hstart hclosed hrefs
    · intro closed hclosed
      rw [closeParen_yard, hclosed]
      exact ⟨Yard.within_closeParen hy hclosed, rfl⟩
    · intro e he
      rw [closeParen_yard, he]
      rfl

theorem recasts_evalExpr (hcall : Caller.Recasts τ k call call') {e : Expr}
    (he : ∀ r ∈ e.references, τ.Reaches k r) :
    Exec.Recasts τ k id (fun _ => True) (evalExpr call e) (evalExpr call' (τ.expr e)) :=
  (recasts_terms_items_expr_arguments hcall).2.2.1 e he

theorem recasts_repeatWhile (label : Nat) {test test' : Exec Value} {body body' : Exec Signal}
    (htest : Exec.Recasts τ k id (fun _ => True) test test')
    (hbody : Exec.Recasts τ k id (fun _ => True) body body') (fuel : Nat) :
    Exec.Recasts τ k id (fun _ => True) (repeatWhile label test body fuel)
      (repeatWhile label test' body' fuel) := by
  induction fuel with
  | zero => exact Exec.Recasts.throw (same_refl _)
  | succ fuel ih =>
      rw [repeatWhile, repeatWhile]
      refine htest.bind fun v _ => ?_
      dsimp only [id]
      split
      · refine hbody.bind fun signal _ => ?_
        dsimp only [id]
        split
        · exact ih
        · exact Exec.Recasts.pure trivial rfl
      · exact Exec.Recasts.pure trivial rfl

theorem recasts_repeatEach (label : Nat) {assign assign' : Value → Exec Unit}
    {body body' : Exec Signal}
    (hassign : ∀ v, Exec.Recasts τ k id (fun _ => True) (assign v) (assign' v))
    (hbody : Exec.Recasts τ k id (fun _ => True) body body') (vs : List Value) :
    Exec.Recasts τ k id (fun _ => True) (repeatEach label assign body vs)
      (repeatEach label assign' body' vs) := by
  induction vs with
  | nil => exact Exec.Recasts.pure trivial rfl
  | cons v vs ih =>
      rw [repeatEach, repeatEach]
      refine (hassign v).bind fun _ _ => hbody.bind fun signal _ => ?_
      dsimp only [id]
      split
      · exact ih
      · exact Exec.Recasts.pure trivial rfl

theorem recasts_execStmt_execBlock (hcall : Caller.Recasts τ k call call') (fuel : Nat) :
    (∀ s : Stmt, (∀ r ∈ s.references, τ.Reaches k r) →
        Exec.Recasts τ k id (fun _ => True) (execStmt call fuel s)
          (execStmt call' fuel (τ.stmt s))) ∧
      ∀ stmts, (∀ r ∈ blockReferences stmts, τ.Reaches k r) →
        Exec.Recasts τ k id (fun _ => True) (execBlock call fuel stmts)
          (execBlock call' fuel (τ.block stmts)) := by
  apply execStmt.mutual_induct
  case case1 =>
    intro e hrefs
    rw [Stmt.references] at hrefs
    rw [stmt, execStmt, execStmt]
    exact (recasts_evalExpr hcall hrefs).discard.bind fun _ _ => Exec.Recasts.pure trivial rfl
  case case2 =>
    intro test body ih hrefs
    rw [Stmt.references, List.forall_mem_append] at hrefs
    rw [stmt, execStmt, execStmt]
    refine (recasts_evalExpr hcall hrefs.1).bind fun v _ => ?_
    dsimp only [id]
    split
    · exact ih hrefs.2
    · exact Exec.Recasts.pure trivial rfl
  case case3 =>
    intro label test body ih hrefs
    rw [Stmt.references, List.forall_mem_append] at hrefs
    rw [stmt, execStmt, execStmt]
    exact recasts_repeatWhile label (recasts_evalExpr hcall hrefs.1) (ih hrefs.2) fuel
  case case4 =>
    intro label vars es body ih hrefs
    rw [Stmt.references, List.forall_mem_append, List.forall_mem_append] at hrefs
    rw [stmt, execStmt, execStmt]
    refine (recasts_evalExpr hcall hrefs.2.1).bind fun v _ => ?_
    refine recasts_repeatEach label (fun item => Exec.Recasts.forM ?_) (ih hrefs.2.2) v.elements
    intro slot hslot
    exact Exec.recasts_write (hrefs.1 _ (List.mem_map_of_mem hslot)) item
  case case10 =>
    intro _
    rw [block, execBlock, execBlock]
    exact Exec.Recasts.pure trivial rfl
  case case11 =>
    intro s stmts ihstmt ih hrefs
    rw [blockReferences, List.forall_mem_append] at hrefs
    rw [block, execBlock, execBlock]
    refine (ihstmt hrefs.1).bind fun signal _ => ?_
    cases signal with
    | next => exact ih hrefs.2
    | breakLoop label => exact Exec.Recasts.pure trivial rfl
    | continueLoop label => exact Exec.Recasts.pure trivial rfl
    | returnNow => exact Exec.Recasts.pure trivial rfl
  all_goals
    intros
    rw [stmt, execStmt, execStmt]
    exact Exec.Recasts.pure trivial rfl

theorem recasts_execBlock (hcall : Caller.Recasts τ k call call') (fuel : Nat)
    {stmts : List Stmt} (hstmts : ∀ r ∈ blockReferences stmts, τ.Reaches k r) :
    Exec.Recasts τ k id (fun _ => True) (execBlock call fuel stmts)
      (execBlock call' fuel (τ.block stmts)) :=
  (recasts_execStmt_execBlock hcall fuel).2 stmts hstmts

/-! ### Calls -/

theorem Exec.recasts_pushFrame (frame : Frame) (pos? : Option Position) :
    Exec.Recasts τ k id (fun _ => True) (pushFrame frame pos?)
      (pushFrame frame (pos?.map τ.place)) := by
  refine Exec.Recasts.get_bind fun s hs => ?_
  by_cases hroom : s.frames.length < maxFrames
  · have hroom' : (τ.session s).frames.length < maxFrames := hroom
    rw [dif_pos hroom, dif_pos hroom']
    intro t _
    exact ⟨⟨⟨hs.globals, hs.bodies⟩, trivial⟩, rfl⟩
  · have hroom' : ¬(τ.session s).frames.length < maxFrames := hroom
    rw [dif_neg hroom, dif_neg hroom']
    exact Exec.Recasts.fail ⟨.callDepth frame.function, pos?⟩

theorem Exec.recasts_popFrame : Exec.Recasts τ k id (fun _ => True) popFrame popFrame := by
  refine Exec.Recasts.get_bind fun s _ => ?_
  have hframes : (τ.session s).frames = s.frames := rfl
  rw [hframes]
  cases s.frames with
  | nil => exact Exec.Recasts.throw (same_refl _)
  | cons frame rest =>
      refine Exec.Recasts.bind (Exec.Recasts.modify ?_ fun _ _ => rfl) fun _ _ =>
        Exec.Recasts.pure trivial rfl
      exact fun t ht => ⟨ht.globals, ht.bodies⟩

theorem Exec.recasts_withFrame (frame : Frame) (pos? : Option Position) {body body' : Exec Unit}
    (hbody : Exec.Recasts τ k id (fun _ => True) body body') :
    Exec.Recasts τ k id (fun _ => True) (withFrame frame pos? body)
      (withFrame frame (pos?.map τ.place) body') := by
  refine (recasts_pushFrame frame pos?).bind fun _ _ => ?_
  refine (hbody.tryCatch fun e e' he => ?_).bind fun _ _ => recasts_popFrame
  exact recasts_popFrame.discard.bind fun _ _ => Exec.Recasts.throw he

theorem recasts_runBody (hcall : Caller.Recasts τ k call call') (fuel : Nat) (frame : Frame)
    {b : Body} (hb : τ.BodyReaches k b) :
    Exec.Recasts τ k id (fun _ => True) (runBody call fuel frame b)
      (runBody call' fuel frame (τ.body b)) := by
  cases b with
  | script stmts => exact (recasts_execBlock hcall fuel hb).discard
  | native run =>
      unfold runBody Recast.body
      dsimp only
      cases run frame with
      | error e => exact Exec.Recasts.throw (same_refl e)
      | ok left => exact Exec.Recasts.modify (fun s hs => ⟨hs.globals, hs.bodies⟩) fun _ _ => rfl

theorem recasts_copyBack (params : List Param) {sources : List Source} (vs : List Value)
    (hsources : Source.Within (τ.Reaches k <| .cell ·) sources) :
    Exec.Recasts τ k id (fun _ => True) (copyBack params sources vs)
      (copyBack params (sources.map τ.source) vs) := by
  induction params generalizing sources vs with
  | nil => exact Exec.Recasts.pure trivial rfl
  | cons p params ih =>
      cases sources with
      | nil => exact Exec.Recasts.pure trivial rfl
      | cons s sources =>
          cases vs with
          | nil => exact Exec.Recasts.pure trivial rfl
          | cons v vs =>
              have hrest := ih vs hsources.of_cons
              cases s with
              | value w => exact hrest
              | cell slot =>
                  simp only [List.map_cons, Recast.source, copyBack]
                  split
                  · exact (Exec.recasts_write (hsources slot List.mem_cons_self) v).bind
                      fun _ _ => hrest
                  · exact hrest

/-- A call does the same, if the body does. -/
theorem recasts_callFunction {run run' : Frame → Body → Exec Unit}
    (hrun : ∀ frame b, τ.BodyReaches k b →
      Exec.Recasts τ k id (fun _ => True) (run frame b) (run' frame (τ.body b))) :
    Caller.Recasts τ k (callFunction run) (callFunction run') := by
  intro index sources pos? hsources
  refine Exec.Recasts.get_bind fun s hs => ?_
  have hfunction : (τ.session s).env.functions[index]? = s.env.functions[index]?.map τ.function :=
    getElem?_functions_env s.env index
  rw [hfunction]
  cases hf : s.env.functions[index]? with
  | none => exact Exec.Recasts.throw (same_refl _)
  | some f =>
      have hbody := hs.bodies f (List.mem_of_getElem? hf)
      simp only [Option.map_some, function_params, function_name, List.length_map]
      refine Exec.Recasts.bind (Exec.Recasts.modify ?_ ?_) fun _ _ => ?_
      · exact fun t ht => ht.modifyFunction index fun _ => rfl
      · exact fun t _ => modifyFunction_session t index fun _ => rfl
      refine Exec.Recasts.bind (Exec.Recasts.mapM fun source hsource => ?_) fun args _ => ?_
      · cases source with
        | cell slot => exact Exec.recasts_read (hsources slot hsource)
        | value v => exact Exec.Recasts.pure trivial rfl
      refine (Exec.recasts_withFrame _ pos? (hrun _ f.body hbody)).bind fun left _ => ?_
      refine (recasts_copyBack _ left.params hsources).bind fun _ _ => ?_
      refine Exec.Recasts.bind (Exec.Recasts.modify ?_ ?_) fun _ _ =>
        Exec.Recasts.pure trivial rfl
      · exact fun t ht => ht.modifyFunction index fun _ => rfl
      · exact fun t _ => modifyFunction_session t index fun _ => rfl

/-- Calls do the same in recast sessions, however deep they are nested. -/
theorem recasts_invoke (fuel room : Nat) :
    Caller.Recasts τ k (invoke fuel room) (invoke fuel room) := by
  induction room with
  | zero => exact recasts_callFunction fun _ _ _ => Exec.Recasts.throw (same_refl _)
  | succ below ih =>
      exact recasts_callFunction fun frame _ hb => recasts_runBody ih fuel frame hb

end Programs

end Scriptlet
