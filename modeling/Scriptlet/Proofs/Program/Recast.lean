import Scriptlet.Proofs.Environment
import Scriptlet.Session.Host

/-!
# Programs recast

A program refers to globals by their index, and its parts carry places. A `Recast` changes
both throughout: there are more globals in front of all others, so each index moves on by
their number, and each place is replaced by another. There may be more globals behind all
others too, which moves no index. Of the tokens that a program is read from, it changes the
lengths as well.

What a session does must not depend on any of this. This module says how the declared names
behave under a recast: every operation on an environment gives the recast of what it gives,
as long as it is about none of the names in front. A new name is declared behind all
others, so where names are looked up there must be no globals behind (`Recast.Spares`).
-/

namespace Scriptlet

/-- A change of all that programs refer to by index or place, and of the tokens that they are
read from. -/
structure Recast where
  /-- The globals put in front. -/
  front : List (String × Value)
  /-- The globals put behind. -/
  back : List (String × Value)
  /-- The new place for each place. -/
  place : Position → Position
  /-- The new length for each length of a token. -/
  length : Nat → Nat

namespace Recast

variable (τ : Recast)

/-- Whether a name is none of those in front, and whether it would be declared at the same index
if it is new. -/
structure Spares (name : String) : Prop where
  front : ∀ g ∈ τ.front, g.1 ≠ name
  back : τ.back = []

def token (t : Token) : Token :=
  { t with pos := τ.place t.pos, length := τ.length t.length }

def error (e : Error) : Error :=
  { e with pos? := e.pos?.map τ.place }

/-- The failure with its error, if there is one, at the new place. -/
def failure : Failure → Failure
  | .error e => .error (τ.error e)
  | .wrapped outer e => .wrapped outer (τ.error e)
  | other => other

/-- The result or the error, recast. -/
def except {α : Type} (f : α → α) : Except Error α → Except Error α
  | .ok a => .ok (f a)
  | .error e => .error (τ.error e)

def slot : Slot → Slot
  | .global i name => .global (i + τ.front.length) name
  | .param i name => .param i name
  | .result name => .result name
  | .last f name => .last f name

mutual

/-- The terms with their slots and places recast. -/
def terms : List Term → List Term
  | [] => []
  | .literal v :: ts => .literal v :: terms ts
  | .slot s :: ts => .slot (τ.slot s) :: terms ts
  | .call function name args pos :: ts =>
      .call function name (arguments args) (τ.place pos) :: terms ts
  | .array es :: ts => .array (items es) :: terms ts
  | .op o pos :: ts => .op o (τ.place pos) :: terms ts
  | .openParen pos :: ts => .openParen (τ.place pos) :: terms ts
  | .closeParen pos :: ts => .closeParen (τ.place pos) :: terms ts

def expr : Expr → Expr
  | .mk ts pos => .mk (terms ts) (τ.place pos)

def items : List Expr → List Expr
  | [] => []
  | e :: es => expr e :: items es

def argument : Argument → Argument
  | .cell s => .cell (τ.slot s)
  | .literal v => .literal v
  | .expr e => .expr (expr e)

def arguments : List Argument → List Argument
  | [] => []
  | a :: as => argument a :: arguments as

end

mutual

/-- The statement with its slots and places recast. -/
def stmt : Stmt → Stmt
  | .expr e => .expr (τ.expr e)
  | .cond test body => .cond (τ.expr test) (block body)
  | .loop label test body => .loop label (τ.expr test) (block body)
  | .each label vars es body => .each label (vars.map τ.slot) (τ.expr es) (block body)
  | .breakLoop target => .breakLoop target
  | .continueLoop target => .continueLoop target
  | .returnNow => .returnNow

def block : List Stmt → List Stmt
  | [] => []
  | s :: ss => stmt s :: block ss

end

theorem block_append (stmts stmts' : List Stmt) :
    τ.block (stmts ++ stmts') = τ.block stmts ++ τ.block stmts' := by
  induction stmts with
  | nil => rfl
  | cons s ss ih => simp [block, ih]

def body : Body → Body
  | .script stmts => .script (τ.block stmts)
  | .native run => .native run

def function (f : Function) : Function :=
  { f with body := τ.body f.body }

@[simp] theorem function_name (f : Function) : (τ.function f).name = f.name := rfl

@[simp] theorem function_params (f : Function) : (τ.function f).params = f.params := rfl

@[simp] theorem function_last (f : Function) : (τ.function f).last = f.last := rfl

@[simp] theorem isNative_function (f : Function) : (τ.function f).isNative = f.isNative := by
  obtain ⟨name, params, body, last⟩ := f
  cases body <;> rfl

/-- The environment with the globals in front and behind, and with the bodies recast. -/
def env (e : Environment) : Environment :=
  .ofLists (τ.front ++ (e.globals ++ τ.back)) (e.functions.map τ.function)

@[simp] theorem globals_env (e : Environment) :
    (τ.env e).globals = τ.front ++ (e.globals ++ τ.back) :=
  Environment.globals_ofLists _ _

@[simp] theorem functions_env (e : Environment) :
    (τ.env e).functions = e.functions.map τ.function :=
  Environment.functions_ofLists _ _

/-- The session with its code and its globals recast. -/
def session (s : Session) : Session :=
  { s with env := τ.env s.env, program := τ.block s.program }

/-! ### The text of programs -/

@[simp] theorem render_slot (s : Slot) : (τ.slot s).render = s.render := by
  cases s <;> rfl

/-- Neither indices nor places are part of the text of an expression. -/
theorem render_expr (e : Expr) : (τ.expr e).render = e.render := by
  have hall : (∀ ts, Term.renderAll (τ.terms ts) = Term.renderAll ts) ∧
      (∀ es, Expr.renderAll (τ.items es) = Expr.renderAll es) ∧
      (∀ e : Expr, (τ.expr e).render = e.render) ∧
      (∀ as, Argument.renderAll (τ.arguments as) = Argument.renderAll as) ∧
      ∀ a : Argument, (τ.argument a).render = a.render := by
    apply terms.mutual_induct
    all_goals
      intros
      simp_all [terms, expr, items, argument, arguments, Term.renderAll, Term.render,
        Expr.renderAll, Expr.render, Argument.renderAll, Argument.render]
  exact hall.2.2.1 e

theorem renderAll_block (stmts : List Stmt) :
    Stmt.renderAll (τ.block stmts) = Stmt.renderAll stmts := by
  have hall : (∀ s : Stmt, (τ.stmt s).render = s.render) ∧
      ∀ ss, Stmt.renderAll (τ.block ss) = Stmt.renderAll ss := by
    apply stmt.mutual_induct
    all_goals
      intros
      simp_all [stmt, block, Stmt.render, Stmt.renderAll, render_expr, Function.comp_def]
  exact hall.2 stmts

@[simp] theorem render_function (f : Function) : (τ.function f).render = f.render := by
  obtain ⟨name, params, body, last⟩ := f
  cases body with
  | script stmts => simp [function, Recast.body, Function.render, renderAll_block]
  | native run => rfl

theorem tree_session (s : Session) : (τ.session s).tree = s.tree := by
  simp [Session.tree, session, renderAll_block, Function.comp_def]

/-! ### Declared names -/

variable {τ} {name : String}

theorem functionIndex?_env (e : Environment) (name : String) :
    (τ.env e).functionIndex? name = e.functionIndex? name := by
  simp [Environment.functionIndex?_eq_findIdx?, List.findIdx?_map, Function.comp_def]

theorem getElem?_functions_env (e : Environment) (i : Nat) :
    (τ.env e).functions[i]? = e.functions[i]?.map τ.function := by
  rw [functions_env, List.getElem?_map]

theorem modifyFunction_env (e : Environment) (i : Nat) {change change' : Function → Function}
    (h : ∀ f, τ.function (change f) = change' (τ.function f)) :
    (τ.env e).modifyFunction i change' = τ.env (e.modifyFunction i change) := by
  refine Environment.ext_lists (by simp) (List.ext_getElem? fun j => ?_)
  simp only [functions_env, Environment.functions_modifyFunction, List.getElem?_map,
    List.getElem?_modify]
  cases e.functions[j]? with
  | none => rfl
  | some f =>
      by_cases hij : i = j
      · simp only [if_pos hij, Option.map_eq_map, Option.map_some, ← h]
        rfl
      · simp [hij]

theorem addFunction_env (e : Environment) (f : Function) :
    (τ.env e).addFunction (τ.function f) = τ.env (e.addFunction f) :=
  Environment.ext_lists (by simp) (by simp)

theorem globalIndex?_env (h : τ.Spares name) (e : Environment) :
    (τ.env e).globalIndex? name = (e.globalIndex? name).map (· + τ.front.length) := by
  have hfront : τ.front.findIdx? (·.1 == name) = none := by
    simpa [List.findIdx?_eq_none_iff] using h.front
  simp [Environment.globalIndex?_eq_findIdx?, List.findIdx?_append, hfront, h.back]

theorem declare_env (h : τ.Spares name) (e : Environment) :
    (τ.env e).declare name =
      ((e.declare name).1 + τ.front.length, τ.env (e.declare name).2) := by
  have hindex := globalIndex?_env h e
  cases hname : e.globalIndex? name with
  | some i =>
      rw [hname] at hindex
      rw [Environment.declare_of_some hindex, Environment.declare_of_some hname]
  | none =>
      rw [hname] at hindex
      rw [Environment.declare_of_none hindex, Environment.declare_of_none hname]
      refine Prod.ext (by simp [Nat.add_comm, h.back]) (Environment.ext_lists ?_ ?_)
      · simp [h.back]
      · simp

theorem modify_append_right {α : Type} (xs ys : List α) (i : Nat) (f : α → α) :
    (xs ++ ys).modify (i + xs.length) f = xs ++ ys.modify i f := by
  induction xs with
  | nil => rfl
  | cons x xs ih => simpa [← Nat.add_assoc] using ih

theorem modify_append_left {α : Type} {xs : List α} {i : Nat} (h : i < xs.length) (ys : List α)
    (f : α → α) : (xs ++ ys).modify i f = xs.modify i f ++ ys := by
  induction xs generalizing i with
  | nil => cases h
  | cons x xs ih =>
      cases i with
      | zero => rfl
      | succ i => simpa using ih (Nat.lt_of_succ_lt_succ h)

theorem setGlobal_env {e : Environment} {i : Nat} (h : τ.back = [] ∨ i < e.globals.length)
    (v : Value) : (τ.env e).setGlobal (i + τ.front.length) v = τ.env (e.setGlobal i v) := by
  refine Environment.ext_lists ?_ (by simp)
  simp only [globals_env, Environment.globals_setGlobal, modify_append_right]
  rcases h with hback | hi
  · simp only [hback, List.append_nil]
  · rw [modify_append_left hi]

theorem resolve_env (h : τ.Spares name) (e : Environment) (function? : Option Nat) :
    (τ.env e).resolve function? name =
      (τ.slot (e.resolve function? name).1, τ.env (e.resolve function? name).2) := by
  have hparam : (function?.bind fun i => (τ.env e).functions[i]?.bind (·.paramIndex? name)) =
      function?.bind fun i => e.functions[i]?.bind (·.paramIndex? name) := by
    congr
    funext i
    rw [getElem?_functions_env]
    cases e.functions[i]? <;> rfl
  unfold Environment.resolve
  rw [globalIndex?_env h, functionIndex?_env, hparam, declare_env h]
  cases e.globalIndex? name with
  | some i => rfl
  | none =>
      cases e.functionIndex? name with
      | some i =>
          dsimp only [Option.map_none]
          split <;> rfl
      | none =>
          cases function?.bind fun i => e.functions[i]?.bind (·.paramIndex? name) <;> rfl

theorem function?_env (e : Environment) (name : String) :
    (τ.env e).function? name =
      (e.function? name).map fun found => (found.1, τ.function found.2) := by
  unfold Environment.function?
  rw [functionIndex?_env]
  cases e.functionIndex? name with
  | none => rfl
  | some i =>
      simp only [Option.bind_some, getElem?_functions_env]
      cases e.functions[i]? <;> rfl

theorem define_env (e : Environment) (name : String) (params : List Param) :
    (τ.env e).define name params = (e.define name params).map τ.env := by
  unfold Environment.define
  rw [function?_env]
  cases e.function? name with
  | none => exact congrArg Except.ok (addFunction_env e (.declared name params))
  | some found =>
      simp only [Option.map_some, isNative_function]
      split
      · exact congrArg Except.ok (modifyFunction_env e found.1 fun _ => rfl)
      · rfl

theorem provide_env (e : Environment) (name : String) (params : List Param) (run : Native) :
    (τ.env e).provide name params run = τ.env (e.provide name params run) := by
  unfold Environment.provide
  rw [functionIndex?_env]
  cases e.functionIndex? name with
  | none => exact addFunction_env e { Function.declared name params with body := .native run }
  | some i => exact modifyFunction_env e i fun _ => rfl

theorem set_env (h : τ.Spares name) (e : Environment) (v : Value) :
    (τ.env e).set name v = τ.env (e.set name v) := by
  unfold Environment.set
  rw [declare_env h]
  exact setGlobal_env (.inl h.back) v

theorem global?_env {e : Environment} {i : Nat} (h : τ.back = [] ∨ i < e.globals.length) :
    (τ.env e).global? (i + τ.front.length) = e.global? i := by
  rw [Environment.global?_eq, Environment.global?_eq, globals_env]
  rcases h with hback | hi
  · simp [List.getElem?_append_right, hback]
  · simp [List.getElem?_append_right, List.getElem?_append_left hi]

theorem get?_env (h : τ.Spares name) (e : Environment) : (τ.env e).get? name = e.get? name := by
  unfold Environment.get?
  rw [globalIndex?_env h, function?_env]
  cases e.globalIndex? name with
  | some i => exact global?_env (.inl h.back)
  | none => simp [Function.comp_def]

/-- Undoing declarations leaves the globals in front. -/
theorem restore_env (h : τ.back = []) (e before : Environment) :
    (τ.env e).restore (τ.env before).mark = τ.env (e.restore before.mark) := by
  refine Environment.ext_lists ?_ ?_
  · simp only [Environment.globals_restore, Environment.mark, ← Environment.length_globals,
      globals_env, h, List.append_nil, List.length_append, List.take_length_add_append]
  · simp only [Environment.functions_restore, Environment.mark, functions_env,
      List.zipWith_map, List.map_zipWith]
    rfl

end Recast

end Scriptlet
