import Scriptlet.Proofs.Parsing.Recast
import Scriptlet.Proofs.Program.Places

/-!
# Parsing and places

The parser copies places from tokens to programs and errors, and it never looks at them. So
parsing tokens without places gives what parsing the tokens gives, without its places. The
main statement is `Parser.unplaces_block`, for every outcome: sources that differ in their
layout only are parsed alike. Taking places away is a way to recast programs, and the tokens
may get other lengths with it.
-/

namespace Scriptlet

/-- No globals are added, and every place becomes the start of a source. -/
def unplacing (length : Nat → Nat) : Recast :=
  ⟨[], [], fun _ => .start, length⟩

namespace unplacing

variable {length : Nat → Nat}

@[simp] theorem front_eq : (unplacing length).front = [] := rfl

@[simp] theorem back_eq : (unplacing length).back = [] := rfl

@[simp] theorem place_eq (pos : Position) : (unplacing length).place pos = .start := rfl

theorem fresh (ts : List Token) : (unplacing length).Fresh ts :=
  fun _ _ _ _ => ⟨List.forall_mem_nil _, rfl⟩

@[simp] theorem slot_eq (s : Slot) : (unplacing length).slot s = s := by
  cases s <;> rfl

theorem map_slot_eq (slots : List Slot) : slots.map (unplacing length).slot = slots := by
  simp [funext slot_eq]

theorem expr_eq (e : Expr) : (unplacing length).expr e = e.unplaced := by
  have hall : (∀ ts, (unplacing length).terms ts = unplacedTerms ts) ∧
      (∀ es, (unplacing length).items es = unplacedItems es) ∧
      (∀ e : Expr, (unplacing length).expr e = e.unplaced) ∧
      (∀ as, (unplacing length).arguments as = unplacedArguments as) ∧
      ∀ a : Argument, (unplacing length).argument a = a.unplaced := by
    apply Recast.terms.mutual_induct
    all_goals
      intros
      simp_all [Recast.terms, Recast.expr, Recast.items, Recast.argument, Recast.arguments,
        unplacedTerms, Expr.unplaced, unplacedItems, Argument.unplaced, unplacedArguments]
  exact hall.2.2.1 e

theorem block_eq (stmts : List Stmt) : (unplacing length).block stmts = unplacedBlock stmts := by
  have hall : (∀ s : Stmt, (unplacing length).stmt s = s.unplaced) ∧
      ∀ ss, (unplacing length).block ss = unplacedBlock ss := by
    apply Recast.stmt.mutual_induct
    all_goals
      intros
      simp_all [Recast.stmt, Recast.block, Stmt.unplaced, unplacedBlock, expr_eq, map_slot_eq]
  exact hall.2 stmts

theorem env_eq (env : Environment) : (unplacing length).env env = env.unplaced := by
  have hfunction : (unplacing length).function = Function.unplaced := by
    funext f
    obtain ⟨name, params, body, last⟩ := f
    cases body with
    | script stmts =>
        simp [Recast.function, Recast.body, Function.unplaced, Body.unplaced, block_eq]
    | native run => rfl
  simp [Recast.env, Environment.unplaced, hfunction]

theorem session_eq (s : Session) : (unplacing length).session s = s.unplaced := by
  simp only [Recast.session, Session.unplaced, env_eq, block_eq]

theorem failure_eq (e : Failure) : (unplacing length).failure e = e.unplaced := by
  cases e <;> rfl

end unplacing

namespace Parser

variable {α : Type}

/-- The outcome without its places. -/
def unplacedOutcome (erase : α → α) :
    EStateM.Result Failure Environment α → EStateM.Result Failure Environment α
  | .ok a env => .ok (erase a) env.unplaced
  | .error e env => .error e.unplaced env.unplaced

/-- Whether `q` does without places what `p` does. -/
def Unplaces (erase : α → α) (p q : Parser α) : Prop :=
  ∀ env : Environment, q env.unplaced = unplacedOutcome erase (p env)

theorem unplaces_block (scope : Scope) (ts : List Token) :
    Unplaces unplacedBlock (block scope ts) (block scope (ts.map Token.unplaced)) := by
  intro env
  have hfresh : (unplacing id).Fresh ts := unplacing.fresh ts
  have hrecast : block scope (ts.map Token.unplaced) ((unplacing id).env env) = _ :=
    recasts_block scope hfresh env
  rw [unplacing.env_eq] at hrecast
  rw [hrecast]
  cases block scope ts env with
  | ok stmts env' =>
      simp [recastOutcome, unplacedOutcome, unplacing.block_eq, unplacing.env_eq]
  | error e env' =>
      simp [recastOutcome, unplacedOutcome, unplacing.failure_eq, unplacing.env_eq]

end Parser

end Scriptlet
