import Scriptlet.Proofs.Parsing.Recast
import Scriptlet.Proofs.Session.Declared
import Scriptlet.Proofs.Session.ExpressionStatement
import Scriptlet.Proofs.Session.Recast

/-!
# Actions in a recast session

What has been shown of parsing and of running is put together here: an action that reads
tokens and runs what it read does in a recast session, and with recast tokens, what it does
in the session. Other than in `Exec.Recasts` the session is a given one, because reading
declares globals, and so the number of globals is not the same before and after.
-/

namespace Scriptlet

namespace Recast

variable {τ : Recast} {s : Session}

theorem reaches_of_admits {env : Environment} {loose : String → Prop} {function? : Option Nat}
    {r : Reference} (h : env.Admits loose function? r) : τ.Reaches env.globals.length r := by
  cases r with
  | function i => trivial
  | cell slot =>
      cases slot with
      | global i name => exact .inr h
      | param i name => trivial
      | result name => trivial
      | last i name => trivial

theorem ranged_of_closed (hs : s.Closed) : τ.Ranged s.env.globals.length s := by
  refine ⟨rfl, fun f hf => ?_⟩
  obtain ⟨i, hi⟩ := List.mem_iff_getElem?.1 hf
  have hfits := hs.env i f hi
  cases hbody : f.body with
  | native run => trivial
  | script stmts =>
      rw [hbody] at hfits
      exact fun r hr => reaches_of_admits (hfits r hr)

/-- With all places as they were, a failure is the same. -/
theorem eq_of_same (hplace : τ.place = id) {e e' : Failure} (h : τ.Same e e') : e' = e := by
  have herror (e : Error) : τ.error e = e := by simp [error, hplace]
  have hfailure : τ.failure e = e := by cases e <;> simp [failure, herror]
  rcases h with rfl | rfl
  · rfl
  · exact hfailure

/-- The outcome in the recast session. -/
def result {α : Type} (τ : Recast) (f : α → α) :
    EStateM.Result Failure Session α → EStateM.Result Failure Session α
  | .ok a t => .ok (f a) (τ.session t)
  | .error e t => .error e (τ.session t)

end Recast

namespace Exec

open Recast

variable {α β : Type} {τ : Recast} {f : α → α} {f' : β → β} {s : Session}

/-- Whether `y` does in the recast session what `x` does in the session `s`. -/
def Moves (τ : Recast) (f : α → α) (x y : Exec α) (s : Session) : Prop :=
  After x s (fun a t => y (τ.session s) = .ok (f a) (τ.session t)) fun e t =>
    ∃ e', τ.Same e e' ∧ y (τ.session s) = .error e' (τ.session t)

theorem Moves.pure {a b : α} (h : b = f a) : Moves τ f (pure a) (pure b) s := by
  subst h
  exact rfl

theorem Moves.throw {e e' : Failure} (h : τ.Same e e') : Moves τ f (throw e) (throw e') s :=
  ⟨e', h, rfl⟩

theorem Moves.bind {x y : Exec α} {next next' : α → Exec β} (hx : Moves τ f x y s)
    (hnext : ∀ a t, x s = .ok a t → Moves τ f' (next a) (next' (f a)) t) :
    Moves τ f' (x >>= next) (y >>= next') s := by
  unfold Moves at hx ⊢
  rw [after_bind]
  unfold After at hx ⊢
  cases h : x s with
  | ok a t =>
      rw [h] at hx
      rw [bind_of_ok hx]
      exact hnext a t h
  | error e t =>
      rw [h] at hx
      obtain ⟨e', he, hy⟩ := hx
      exact ⟨e', he, bind_of_error hy⟩

theorem Moves.get_bind {next next' : Session → Exec β}
    (h : Moves τ f' (next s) (next' (τ.session s)) s) :
    Moves τ f' (get >>= next) (get >>= next') s :=
  h

theorem Moves.tryCatch {x y : Exec α} {handle handle' : Failure → Exec α}
    (hx : Moves τ f x y s)
    (hhandle : ∀ e e' t, x s = .error e t → τ.Same e e' → Moves τ f (handle e) (handle' e') t) :
    Moves τ f (tryCatch x handle) (tryCatch y handle') s := by
  unfold Moves at hx ⊢
  rw [after_tryCatch]
  unfold After at hx ⊢
  cases h : x s with
  | ok a t =>
      rw [h] at hx
      exact tryCatch_of_ok hx
  | error e t =>
      rw [h] at hx
      obtain ⟨e', he, hy⟩ := hx
      rw [tryCatch_of_error hy]
      exact hhandle e e' t h he

theorem Moves.of_recasts {result : α → Prop} {x y : Exec α} {k : Nat} (hs : τ.Ranged k s)
    (h : Recasts τ k f result x y) : Moves τ f x y s :=
  (h s hs).mono (fun _ _ ha => ha.2) fun _ _ he => he.2

theorem Moves.result_eq {x y : Exec α} (hplace : τ.place = id) (h : Moves τ f x y s) :
    y (τ.session s) = τ.result f (x s) := by
  unfold Moves After at h
  cases hend : x s with
  | ok a t =>
      rw [hend] at h
      exact h
  | error e t =>
      rw [hend] at h
      obtain ⟨e', he, hy⟩ := h
      obtain rfl := eq_of_same hplace he
      exact hy

/-! ### Reading tokens -/

theorem moves_declaring (hback : τ.back = []) {parser parser' : Parser α}
    (h : Parser.Recasts τ f parser parser') :
    Moves τ f (declaring parser) (declaring parser') s := by
  have hparser : parser' (τ.session s).env = _ := h s.env
  unfold Moves After
  cases hend : parser s.env with
  | ok a env =>
      rw [hend] at hparser
      rw [declaring_of_ok hend]
      exact declaring_of_ok hparser
  | error e env =>
      rw [hend] at hparser
      rw [declaring_of_error hend]
      refine ⟨_, same_failure e, (declaring_of_error hparser).trans ?_⟩
      simp only [Recast.session, restore_env hback]

/-- The statements of tokens, whose declarations take effect. -/
def readBlock (ts : List Token) : Exec (List Stmt) :=
  declaring (Parser.block .top ts)

/-- The expression that tokens consist of. -/
def readExpr (ts : List Token) : Exec Expr :=
  match dropSemicolons ts with
  | [] => fail Cause.emptyExpression.nowhere
  | t :: us => do
      match (← ofExcept (Extent.find true (t :: us))).rest with
      | [] => declaring (Parser.expression .top (t :: us))
      | found :: _ => fail ((Cause.tokenAfterExpression found.lexeme).located found.pos)

section Sources

variable {source : String} {ts : List Token}

theorem parse_of_tokens (h : (tokenize source).toExcept = .ok ts) :
    parse source = readBlock ts := by
  simp only [parse, h, ofExcept, pure_bind]
  rfl

theorem parseExpr_of_tokens (h : (tokenize source).toExcept = .ok ts) :
    parseExpr source = readExpr ts := by
  simp only [parseExpr, h, ofExcept, pure_bind]
  rfl

end Sources

variable {ts : List Token}

theorem moves_readBlock (hback : τ.back = []) (hts : τ.Fresh ts) :
    Moves τ τ.block (readBlock ts) (readBlock (ts.map τ.token)) s :=
  moves_declaring hback (Parser.recasts_block .top hts)

theorem fresh_dropSemicolons (h : τ.Fresh ts) : τ.Fresh (dropSemicolons ts) := by
  obtain ⟨more, hts, _⟩ := dropSemicolons_append ts
  have hprefix : dropSemicolons ts <+: ts := ⟨more, hts.symm⟩
  exact h.of_subset hprefix.subset

theorem dropSemicolons_map (ts : List Token) :
    dropSemicolons (ts.map τ.token) = (dropSemicolons ts).map τ.token := by
  unfold dropSemicolons
  rw [← List.map_reverse, List.dropWhile_map, List.map_reverse]
  rfl

theorem moves_readExpr (hback : τ.back = []) (hts : τ.Fresh ts) :
    Moves τ τ.expr (readExpr ts) (readExpr (ts.map τ.token)) s := by
  have hfresh := fresh_dropSemicolons hts
  unfold readExpr
  rw [dropSemicolons_map]
  cases hdrop : dropSemicolons ts with
  | nil => exact Moves.throw (same_failure _)
  | cons t us =>
      rw [hdrop] at hfresh
      have hexpr := Parser.recasts_expression .top (List.cons_ne_nil t us) hfresh
      rw [List.map_cons]
      dsimp only
      rw [← List.map_cons, find_map]
      cases Extent.find true (t :: us) with
      | error e => exact Moves.throw (same_failure (.error e))
      | ok x =>
          simp only [ofExcept, except, extent, pure_bind]
          cases x.rest with
          | nil => exact moves_declaring hback hexpr
          | cons found rest => exact Moves.throw (same_failure _)

/-! ### Running what was read -/

theorem moves_extend (stmts : List Stmt) :
    Moves τ id (modify fun s => { s with program := s.program ++ stmts })
      (modify fun s => { s with program := s.program ++ τ.block stmts }) s := by
  refine congrArg (EStateM.Result.ok ()) ?_
  simp only [Recast.session, Recast.block_append]

theorem moves_runStmts (hs : τ.Ranged s.env.globals.length s) (fuel : Nat) {stmts : List Stmt}
    (hstmts : ∀ r ∈ blockReferences stmts, τ.Reaches s.env.globals.length r) :
    Moves τ id (runStmts fuel stmts) (runStmts fuel (τ.block stmts)) s :=
  .of_recasts hs (recasts_execBlock (recasts_invoke fuel maxFrames) fuel hstmts).discard

theorem moves_evalExpr (hs : τ.Ranged s.env.globals.length s) (fuel : Nat) {e : Expr}
    (he : ∀ r ∈ e.references, τ.Reaches s.env.globals.length r) :
    Moves τ id (evalExpr (invoke fuel maxFrames) e)
      (evalExpr (invoke fuel maxFrames) (τ.expr e)) s :=
  .of_recasts hs (recasts_evalExpr (recasts_invoke fuel maxFrames) he)

/-- A call on values has no slots that could move. -/
theorem moves_invoke (hs : s.Closed) (fuel room index : Nat) (vs : List Value) :
    Moves τ id (invoke fuel room index (vs.map .value) none)
      (invoke fuel room index (vs.map .value) none) s := by
  have hwithin : Source.Within (τ.Reaches s.env.globals.length <| .cell ·) (vs.map .value) :=
    Source.within_values _ vs
  have hrecasts := recasts_invoke fuel room index (vs.map .value) none hwithin
  have hsources : (vs.map Source.value).map τ.source = vs.map .value := by
    rw [List.map_map]
    rfl
  rw [hsources] at hrecasts
  exact .of_recasts (ranged_of_closed hs) hrecasts

end Exec

end Scriptlet
