import Scriptlet.Proofs.Parsing.BareCall
import Scriptlet.Proofs.Session.Moving
import Scriptlet.Proofs.Session.Names

/-!
# Calls by a host and calls in a source

A host calls a function on values, and it gets back what the call left in the arguments. A
source can do the same by way of globals, which are set to the values and named in a call.
The main statement is `eval_call_of_reachable`: for new globals the two give the same value
or fail by the same failure, and they leave the same session, but for the globals. These
hold what the host gets back.

The new globals stand behind all others, which is a way to recast programs, so the body of
the function does not see them. What is left is copying back. Parameters passed by reference
go to the cells of the arguments, and those are the globals in their order
(`Session.assign_copies`).
-/

namespace Scriptlet

namespace Session

variable {s : Session}

/-- The session with several globals set, in their order. -/
def setAll (s : Session) (globals : List (String × Value)) : Session :=
  globals.foldl (fun s' g => s'.set g.1 g.2) s

/-- The session with other globals. -/
def withGlobals (s : Session) (globals : List (String × Value)) : Session :=
  { s with env := .ofLists globals s.env.functions }

@[simp] theorem globals_withGlobals (s : Session) (globals : List (String × Value)) :
    (s.withGlobals globals).env.globals = globals :=
  Environment.globals_ofLists _ _

@[simp] theorem functions_withGlobals (s : Session) (globals : List (String × Value)) :
    (s.withGlobals globals).env.functions = s.env.functions :=
  Environment.functions_ofLists _ _

@[simp] theorem functionIndex?_withGlobals (s : Session) (globals : List (String × Value))
    (name : String) :
    (s.withGlobals globals).env.functionIndex? name = s.env.functionIndex? name := by
  rw [Environment.functionIndex?_eq_findIdx?, functions_withGlobals,
    ← Environment.functionIndex?_eq_findIdx?]

@[simp] theorem globalNames_withGlobals (s : Session) (globals : List (String × Value)) :
    (s.withGlobals globals).env.globalNames = globals.map Prod.fst :=
  Environment.globalNames_ofLists _ _

theorem withGlobals_self (s : Session) : s.withGlobals s.env.globals = s := by
  rw [withGlobals, ← Environment.eq_ofLists]

theorem withGlobals_withGlobals (s : Session) (globals globals' : List (String × Value)) :
    (s.withGlobals globals).withGlobals globals' = s.withGlobals globals' := by
  unfold withGlobals
  rw [Environment.functions_ofLists]

theorem setCell_withGlobals (s : Session) (earlier : List (String × Value)) (name : String)
    (v w : Value) (later : List (String × Value)) :
    (s.withGlobals (earlier ++ (name, v) :: later)).setCell (.global earlier.length name) w =
      s.withGlobals (earlier ++ (name, w) :: later) := by
  have hmodify := Recast.modify_append_right earlier ((name, v) :: later) 0 fun g => (g.1, w)
  rw [Nat.zero_add] at hmodify
  have henv : (Environment.ofLists (earlier ++ (name, v) :: later) s.env.functions).setGlobal
      earlier.length w = .ofLists (earlier ++ (name, w) :: later) s.env.functions := by
    refine Environment.ext_lists ?_ (by simp)
    simp only [Environment.globals_setGlobal, Environment.globals_ofLists, hmodify]
    rfl
  simp only [setCell, withGlobals, henv]

theorem set_of_new {name : String} (h : name ∉ s.env.globalNames) (v : Value) :
    s.set name v = s.withGlobals (s.env.globals ++ [(name, v)]) := by
  have hdeclare := Environment.declare_of_none (Environment.globalIndex?_eq_none.2 h)
  rw [← s.setCell_withGlobals s.env.globals name .zero v []]
  simp only [set, Environment.set, hdeclare]
  rfl

/-- New globals are declared behind all others. -/
theorem setAll_of_new {globals : List (String × Value)} (hnodup : (globals.map (·.1)).Nodup)
    (hnew : ∀ g ∈ globals, g.1 ∉ s.env.globalNames) :
    s.setAll globals = s.withGlobals (s.env.globals ++ globals) := by
  induction globals generalizing s with
  | nil =>
      rw [List.append_nil, withGlobals_self]
      rfl
  | cons g globals ih =>
      obtain ⟨hg, hglobals⟩ := List.forall_mem_cons.1 hnew
      obtain ⟨hfirst, hnodup⟩ := List.nodup_cons.1 hnodup
      have hrest : ∀ g' ∈ globals,
          g'.1 ∉ (s.withGlobals (s.env.globals ++ [g])).env.globalNames := by
        intro g' hg'
        have hnames : (s.withGlobals (s.env.globals ++ [g])).env.globalNames =
            s.env.globalNames ++ [g.1] := by
          rw [globalNames_withGlobals, List.map_append, Environment.map_fst_globals]
          rfl
        rw [hnames, List.mem_append, List.mem_singleton, not_or]
        exact ⟨hglobals g' hg', fun heq => hfirst (List.mem_map.2 ⟨g', hg', heq⟩)⟩
      change (s.set g.1 g.2).setAll globals = _
      rw [set_of_new hg, ih hnodup hrest, withGlobals_withGlobals, globals_withGlobals,
        List.append_assoc, List.singleton_append]

theorem setAll_zip {names : List String} {vs : List Value} (hnodup : names.Nodup)
    (hnew : ∀ name ∈ names, name ∉ s.env.globalNames) (hlength : names.length = vs.length) :
    s.setAll (names.zip vs) = s.withGlobals (s.env.globals ++ names.zip vs) := by
  refine setAll_of_new ?_ fun g hg => hnew g.1 (List.of_mem_zip hg).1
  rwa [List.map_fst_zip (Nat.le_of_eq hlength)]

end Session

/-! ### The names -/

def Slot.isGlobal : Slot → Bool
  | .global .. => true
  | _ => false

/-- The slots of globals in their order, from an index on. -/
def Slot.globalsFrom : Nat → List String → List Slot
  | _, [] => []
  | i, name :: names => .global i name :: globalsFrom (i + 1) names

theorem Slot.isGlobal_of_mem_globalsFrom {i : Nat} {names : List String} :
    ∀ slot ∈ globalsFrom i names, slot.isGlobal := by
  induction names generalizing i with
  | nil => exact List.forall_mem_nil _
  | cons name names ih => exact List.forall_mem_cons.2 ⟨rfl, ih⟩

open Slot (globalsFrom)

section Globals

variable {names before : List String} {vs : List Value}

theorem Environment.globalIndex?_of_append {env : Environment} {name : String}
    (henv : env.globalNames = before ++ name :: names) (hnew : name ∉ before) :
    env.globalIndex? name = some before.length := by
  have hbefore : before.findIdx? (· == name) = none := by
    rw [List.findIdx?_eq_none_iff]
    intro other hother
    rw [beq_eq_false_iff_ne]
    rintro rfl
    exact hnew hother
  rw [globalIndex?_eq, henv, List.findIdx?_append, hbefore, List.findIdx?_cons]
  simp

/-- Names of globals are resolved to their slots. -/
theorem Parser.mapM_resolve_globals {env : Environment} (scope : Scope)
    (henv : env.globalNames = before ++ names) (hnodup : names.Nodup)
    (hnew : ∀ name ∈ names, name ∉ before) :
    names.mapM (resolve scope) env = .ok (globalsFrom before.length names) env := by
  induction names generalizing before with
  | nil => rfl
  | cons name names ih =>
      obtain ⟨hname, hnames⟩ := List.forall_mem_cons.1 hnew
      obtain ⟨hfirst, hnodup⟩ := List.nodup_cons.1 hnodup
      have hslot : env.resolve scope.function? name = (.global before.length name, env) := by
        rw [Environment.resolve, Environment.globalIndex?_of_append henv hname]
      have hresolve : resolve scope name env = .ok (.global before.length name) env :=
        congrArg (fun found : Slot × Environment => EStateM.Result.ok found.1 found.2) hslot
      have hrest : names.mapM (resolve scope) env =
          .ok (globalsFrom (before ++ [name]).length names) env := by
        refine ih (by simp [henv]) hnodup fun name' hname' => ?_
        rw [List.mem_append, List.mem_singleton, not_or]
        exact ⟨hnames name' hname', fun heq => hfirst (heq ▸ hname')⟩
      rw [List.length_append] at hrest
      rw [List.mapM_cons, bind_of_ok hresolve, bind_of_ok hrest]
      rfl

namespace Session

variable {s : Session} {earlier : List (String × Value)}

/-- The cells of globals in their order. -/
theorem map_cell_globalsFrom (hlength : names.length = vs.length) :
    (globalsFrom earlier.length names).map (s.withGlobals (earlier ++ names.zip vs)).cell =
      vs.map .ok := by
  induction names generalizing earlier vs with
  | nil =>
      obtain rfl := List.length_eq_zero_iff.1 hlength.symm
      rfl
  | cons name names ih =>
      cases vs with
      | nil => cases hlength
      | cons v vs =>
          have hrest := @ih vs (earlier ++ [(name, v)]) (Nat.succ.inj hlength)
          rw [List.append_assoc, List.length_append] at hrest
          rw [globalsFrom, List.map_cons, List.map_cons, List.zip_cons_cons]
          refine congrArg₂ List.cons ?_ hrest
          simp [cell, Environment.global?_eq]

/-- Copying back leaves in the globals what a host gets back for the arguments. -/
theorem assign_copies (params : List Param) (lefts : List Value)
    (hlength : names.length = vs.length) :
    (s.withGlobals (earlier ++ names.zip vs)).assign
        (copies params ((globalsFrom earlier.length names).map .cell) lefts) =
      s.withGlobals (earlier ++ names.zip (Exec.argsAfter params vs lefts)) := by
  induction names generalizing earlier vs params lefts with
  | nil => simp [copies, globalsFrom, assign]
  | cons name names ih =>
      cases vs with
      | nil => cases hlength
      | cons v vs =>
          cases params with
          | nil => rfl
          | cons p params =>
              cases lefts with
              | nil => simp [copies, Exec.argsAfter, assign]
              | cons left lefts =>
                  -- Whatever the first global now holds, it is an earlier one for the rest.
                  have hrest (w : Value) :=
                    @ih vs (earlier ++ [(name, w)]) params lefts (Nat.succ.inj hlength)
                  simp only [List.append_assoc, List.singleton_append, List.length_append,
                    List.length_singleton] at hrest
                  rw [globalsFrom, List.map_cons, copies_cell, List.zip_cons_cons,
                    Exec.argsAfter, List.zip_cons_cons]
                  by_cases href : p.byRef
                  · rw [if_pos href, if_pos href, ← hrest left,
                      ← s.setCell_withGlobals earlier name v left (names.zip vs)]
                    rfl
                  · rw [if_neg href, if_neg href]
                    exact hrest v

end Session

end Globals

/-! ### The call -/

namespace Recast

/-- Globals behind all others, while all places stay. -/
def ahead (back : List (String × Value)) : Recast :=
  ⟨[], back, id, id⟩

variable {back : List (String × Value)}

@[simp] theorem place_ahead (pos : Position) : (ahead back).place pos = pos := rfl

@[simp] theorem slot_ahead (slot : Slot) : (ahead back).slot slot = slot := by
  cases slot <;> rfl

theorem expr_ahead (e : Expr) : (ahead back).expr e = e := by
  have hall : (∀ ts, (ahead back).terms ts = ts) ∧ (∀ es, (ahead back).items es = es) ∧
      (∀ e : Expr, (ahead back).expr e = e) ∧ (∀ as, (ahead back).arguments as = as) ∧
      ∀ a : Argument, (ahead back).argument a = a := by
    apply terms.mutual_induct
    all_goals
      intros
      simp_all [terms, expr, items, argument, arguments]
  exact hall.2.2.1 e

theorem block_ahead (stmts : List Stmt) : (ahead back).block stmts = stmts := by
  have hslot : (ahead back).slot = id := funext slot_ahead
  have hall : (∀ s : Stmt, (ahead back).stmt s = s) ∧ ∀ ss, (ahead back).block ss = ss := by
    apply stmt.mutual_induct
    all_goals
      intros
      simp_all [stmt, block, expr_ahead]
  exact hall.2 stmts

theorem session_ahead (s : Session) :
    (ahead back).session s = s.withGlobals (s.env.globals ++ back) := by
  have hfunction : (ahead back).function = id := by
    funext f
    obtain ⟨name, params, body, last⟩ := f
    cases body with
    | script stmts => simp [function, body, block_ahead]
    | native run => rfl
  simp only [session, env, block_ahead, hfunction, List.map_id]
  rfl

end Recast

variable {s : Session} {index : Nat} {f : Function} {vs : List Value} {slots : List Slot}

/-- A call on values does the same with more globals behind. -/
theorem invoke_withGlobals (hs : s.Closed) (fuel room index : Nat) (vs : List Value)
    (back : List (String × Value)) :
    invoke fuel room index (vs.map .value) none (s.withGlobals (s.env.globals ++ back)) =
      (Recast.ahead back).result id (invoke fuel room index (vs.map .value) none s) := by
  rw [← Recast.session_ahead]
  exact (Exec.moves_invoke hs fuel room index vs).result_eq rfl

theorem has_of_map_cell (h : slots.map s.cell = vs.map .ok) : ∀ slot ∈ slots, s.Has slot := by
  intro slot hslot
  have hmem : s.cell slot ∈ vs.map Except.ok := h ▸ List.mem_map_of_mem hslot
  obtain ⟨v, -, hv⟩ := List.mem_map.1 hmem
  exact Session.has_iff.2 ⟨v, hv.symm⟩

theorem Source.within_cells {ok : Slot → Prop} (h : ∀ slot ∈ slots, ok slot) :
    Within ok (slots.map .cell) := by
  intro slot hslot
  obtain ⟨_, hmem, heq⟩ := List.mem_map.1 hslot
  cases heq
  exact h slot hmem

theorem evalArguments_cells {call : Caller} (h : ∀ slot ∈ slots, s.Has slot) :
    evalArguments call (slots.map .cell) s = .ok (slots.map .cell) s := by
  induction slots with
  | nil =>
      rw [List.map_nil, evalArguments]
      rfl
  | cons slot slots ih =>
      obtain ⟨hslot, hslots⟩ := List.forall_mem_cons.1 h
      obtain ⟨v, hv⟩ := Session.has_iff.1 hslot
      rw [List.map_cons, evalArguments, bind_of_ok (discard_of_ok (read_of_cell hv)),
        bind_of_ok (ih hslots)]
      rfl

/-- The value of a single call is its result. -/
theorem evalExpr_evalCall (call : Caller) (index : Nat) (name : String) (args : List Argument)
    (pos start : Position) :
    evalExpr call (.mk [.call index name args pos] start) =
      (do return (← evalCall call index args (some pos)).result) := by
  funext s
  have hslots : Term.slots [.call index name args pos] = [] := rfl
  rw [evalExpr, bind_of_ok (show (get : Exec Session) s = .ok s s from rfl), hslots, evalCall]
  simp only [sortTerms, bind_assoc, pure_bind, List.forM_eq_forM, List.forM_nil]
  rfl

theorem evalExpr_call {call : Caller} (h : ∀ slot ∈ slots, s.Has slot) (index : Nat)
    (name : String) (pos start : Position) :
    evalExpr call (.mk [.call index name (slots.map .cell) pos] start) s =
      (do return (← call index (slots.map .cell) (some pos)).result) s := by
  rw [evalExpr_evalCall]
  simp only [evalCall, bind_assoc]
  rw [bind_of_ok (evalArguments_cells h)]

/-! ### Copying back -/

theorem copies_values (params : List Param) (vs lefts : List Value) :
    copies params (vs.map .value) lefts = [] := by
  rw [copies, List.filterMap_eq_nil_iff]
  rintro ⟨⟨p, source⟩, left⟩ hmem
  obtain ⟨v, -, rfl⟩ := List.mem_map.1 (List.of_mem_zip (List.of_mem_zip hmem).1).2
  rfl

/-- What is copied back to globals may be copied back after the result is recorded. -/
theorem Session.setCell_last_assign {assignments : List (Slot × Value)}
    (h : ∀ a ∈ assignments, a.1.isGlobal) (s : Session) (function : Nat) (name : String)
    (v : Value) :
    (s.assign assignments).setCell (.last function name) v =
      (s.setCell (.last function name) v).assign assignments := by
  induction assignments generalizing s with
  | nil => rfl
  | cons a assignments ih =>
      obtain ⟨ha, hrest⟩ := List.forall_mem_cons.1 h
      have hswap : (s.setCell a.1 a.2).setCell (.last function name) v =
          (s.setCell (.last function name) v).setCell a.1 a.2 := by
        obtain ⟨slot, w⟩ := a
        cases slot with
        | global i global => rfl
        | _ => cases ha
      change ((s.setCell a.1 a.2).assign assignments).setCell (.last function name) v = _
      rw [ih hrest, hswap]
      rfl

/-- Outside of every call, a call on cells of globals is a call on their values, and then the
parameters passed by reference are copied back. -/
theorem invoke_globals (fuel : Nat) (pos? : Option Position) (hidle : s.Idle)
    (hf : s.env.functions[index]? = some f) (hslots : ∀ slot ∈ slots, slot.isGlobal)
    (hcells : slots.map s.cell = vs.map .ok) :
    invoke fuel maxFrames index (slots.map .cell) pos? s = (do
      let left ← invoke fuel maxFrames index (vs.map .value) none
      modify fun t : Session => t.assign (copies (Function.paramsFor f.params vs.length)
        (slots.map .cell) left.params)
      return left) s := by
  have hcells' : (slots.map Source.cell).map (Source.valueIn s) = vs.map .ok := by
    rw [List.map_map]
    exact hcells
  have hvalues : (vs.map Source.value).map (Source.valueIn s) = vs.map .ok := by
    rw [List.map_map]
    rfl
  have hcalled := called_invoke fuel pos? hf hcells' (Source.within_cells (has_of_map_cell hcells))
  have hhost := called_invoke fuel none hf hvalues (Source.within_values s.Has vs)
  have hroom : ¬maxFrames ≤ s.frames.length := by
    rw [hidle]
    decide
  generalize invoke fuel maxFrames index (slots.map .cell) pos? s = outcome at hcalled
  generalize hend : invoke fuel maxFrames index (vs.map .value) none s = hosted at hhost
  -- The body is run in the same session, so the two calls end alike.
  cases hcalled with
  | tooDeep h => exact absurd h hroom
  | failed h hrun hframes =>
      cases hhost with
      | tooDeep h' => exact absurd h' hroom
      | failed h' hrun' hframes' =>
          cases hrun.symm.trans hrun'
          exact (bind_of_error hend).symm
      | done h' hrun' hframes' => cases hrun.symm.trans hrun'
  | done h hrun hframes =>
      cases hhost with
      | tooDeep h' => exact absurd h' hroom
      | failed h' hrun' hframes' => cases hrun.symm.trans hrun'
      | done h' hrun' hframes' =>
          cases hrun.symm.trans hrun'
          cases hframes.symm.trans hframes'
          rw [bind_of_ok hend, copies_values, Session.setCell_last_assign]
          · rfl
          · exact (Source.within_cells hslots).copies

/-! ### The arguments -/

namespace Exec

theorem argsAfter_byValue {params : List Param} (h : ∀ p ∈ params, p.byRef = false)
    (args lefts : List Value) : argsAfter params args lefts = args := by
  fun_induction argsAfter params args lefts with
  | case1 p params arg args left lefts ih =>
      obtain ⟨hp, hparams⟩ := List.forall_mem_cons.1 h
      rw [if_neg (Bool.eq_false_iff.1 hp), ih hparams]
  | case2 params args lefts hnone => rfl

/-- Further parameters that are passed by value make no difference to the arguments. -/
theorem argsAfter_append {added : List Param} (h : ∀ p ∈ added, p.byRef = false)
    (params : List Param) (args lefts : List Value) :
    argsAfter (params ++ added) args lefts = argsAfter params args lefts := by
  induction params generalizing args lefts with
  | nil =>
      rw [List.nil_append, argsAfter_byValue h, argsAfter_byValue (List.forall_mem_nil _)]
  | cons p params ih =>
      cases args with
      | nil => cases lefts <;> rfl
      | cons arg args =>
          cases lefts with
          | nil => rfl
          | cons left lefts =>
              rw [List.cons_append, argsAfter, argsAfter, ih]

theorem argsAfter_kept {f g : Function} (h : f.Kept g) (args lefts : List Value) :
    argsAfter g.params args lefts = argsAfter f.params args lefts := by
  obtain ⟨added, hparams, hadded⟩ := h.extended
  rw [hparams, argsAfter_append hadded]

theorem length_argsAfter (params : List Param) (args lefts : List Value) :
    (argsAfter params args lefts).length = args.length := by
  fun_induction argsAfter params args lefts with
  | case1 p params arg args left lefts ih => exact congrArg (· + 1) ih
  | case2 params args lefts hnone => rfl

/-- A call by a host, by how the function ends. -/
theorem call_eq (fuel : Nat) {name : String} (hindex : s.env.functionIndex? name = some index)
    (hf : s.env.functions[index]? = some f) (vs : List Value) :
    call fuel name vs s = (do
      let left ← invoke fuel maxFrames index (vs.map .value) none
      return (left.result, argsAfter f.params vs left.params)) s := by
  rw [call, bind_of_ok (show (get : Exec Session) s = .ok s s from rfl), hindex]
  refine bind_congr_right fun left t hend => ?_
  have hkept := (kept_invoke fuel maxFrames index (vs.map .value) none s s
    (Session.Kept.refl s)).of_ok hend
  obtain ⟨g, hg, hfg⟩ := hkept.1.function hf
  change EStateM.Result.ok (left.result,
    argsAfter ((t.env.functions[index]?.map (·.params)).getD []) vs left.params) t = _
  rw [hg]
  exact congrArg (fun args => EStateM.Result.ok (left.result, args) t)
    (argsAfter_kept hfg vs left.params)

variable {source function : String} {names : List String}

/-- A source that calls a function on globals does what the call on their values does, and then
the parameters passed by reference are copied back to the globals. -/
theorem eval_globals (fuel : Nat) {before : List String} (hidle : s.Idle)
    (hindex : s.env.functionIndex? function = some index)
    (hf : s.env.functions[index]? = some f)
    (hsource : (tokenize source).Says (callLexemes function names))
    (hnames : s.env.globalNames = before ++ names) (hnodup : names.Nodup)
    (hnew : ∀ name ∈ names, name ∉ before)
    (hcells : (globalsFrom before.length names).map s.cell = vs.map .ok) :
    eval fuel source s = (do
      let left ← invoke fuel maxFrames index (vs.map .value) none
      modify fun t : Session => t.assign (copies (Function.paramsFor f.params vs.length)
        ((globalsFrom before.length names).map .cell) left.params)
      return left.result) s := by
  obtain ⟨pos, hparse⟩ := parseExpr_call hsource
  have hcallee : Parser.callee function pos s.env = .ok index s.env := by
    rw [Parser.callee, bind_of_ok (Parser.get_eq_ok s.env), hindex]
    rfl
  have hread : parseExpr source s =
      .ok (.mk [.call index function ((globalsFrom before.length names).map .cell) pos] pos) s := by
    rw [hparse]
    refine declaring_of_ok ?_
    rw [bind_of_ok hcallee, bind_of_ok (Parser.mapM_resolve_globals .top hnames hnodup hnew)]
    rfl
  have hinvoke := invoke_globals fuel (some pos) hidle hf Slot.isGlobal_of_mem_globalsFrom hcells
  rw [eval, bind_of_ok hread, evalExpr_call (has_of_map_cell hcells), bind_congr_left hinvoke]
  simp only [bind_assoc, pure_bind]

/-- With new globals for the arguments, a call in a source ends as the call on values does
without them. -/
theorem after_invoke_eval (hs : s.Closed) (hidle : s.Idle)
    (hindex : s.env.functionIndex? function = some index)
    (hf : s.env.functions[index]? = some f)
    (hsource : (tokenize source).Says (callLexemes function names)) (hnodup : names.Nodup)
    (hnew : ∀ name ∈ names, name ∉ s.env.globalNames) (hlength : names.length = vs.length)
    (fuel : Nat) :
    After (invoke fuel maxFrames index (vs.map .value) none) s
      (fun left t => s.Kept t ∧ eval fuel source (s.withGlobals (s.env.globals ++ names.zip vs)) =
        .ok left.result (t.withGlobals
          (t.env.globals ++ names.zip (argsAfter f.params vs left.params))))
      fun e t => s.Kept t ∧ eval fuel source (s.withGlobals (s.env.globals ++ names.zip vs)) =
        .error e (t.withGlobals (t.env.globals ++ names.zip vs)) := by
  let u := s.withGlobals (s.env.globals ++ names.zip vs)
  have hbefore : s.env.globalNames.length = s.env.globals.length := by
    rw [Environment.globalNames, ← Environment.map_fst_globals, List.length_map]
  have hnames : u.env.globalNames = s.env.globalNames ++ names := by
    rw [Session.globalNames_withGlobals, List.map_append,
      List.map_fst_zip (Nat.le_of_eq hlength), Environment.map_fst_globals]
    rfl
  have hcells : (globalsFrom s.env.globalNames.length names).map u.cell = vs.map .ok := by
    rw [hbefore]
    exact Session.map_cell_globalsFrom hlength
  have heval : eval fuel source u = _ :=
    eval_globals fuel hidle ((s.functionIndex?_withGlobals _ function).trans hindex)
      (by rwa [Session.functions_withGlobals]) hsource hnames hnodup hnew hcells
  have hmove := invoke_withGlobals hs fuel maxFrames index vs (names.zip vs)
  have hkept := kept_invoke fuel maxFrames index (vs.map .value) none s s (Session.Kept.refl s)
  unfold After at hkept ⊢
  cases hend : invoke fuel maxFrames index (vs.map .value) none s with
  | error e t =>
      rw [hend] at hmove hkept
      rw [Recast.result, Recast.session_ahead] at hmove
      exact ⟨hkept.1, heval.trans (bind_of_error hmove)⟩
  | ok left t =>
      rw [hend] at hmove hkept
      rw [Recast.result, Recast.session_ahead] at hmove
      refine ⟨hkept.1, (heval.trans (bind_of_ok hmove)).trans ?_⟩
      refine congrArg (EStateM.Result.ok left.result) ?_
      rw [hbefore, ← hkept.1.globals_length, ← argsAfter_kept (f.kept_paramsFor vs.length)]
      exact Session.assign_copies _ left.params hlength

/-- A function is called by a host as it is called in a source, with new globals for the
arguments. -/
theorem after_call_eval (hs : s.Closed) (hidle : s.Idle)
    (hindex : s.env.functionIndex? function = some index)
    (hsource : (tokenize source).Says (callLexemes function names)) (hnodup : names.Nodup)
    (hnew : ∀ name ∈ names, name ∉ s.env.globalNames) (hlength : names.length = vs.length)
    (fuel : Nat) :
    After (call fuel function vs) s
      (fun out t => out.2.length = vs.length ∧
        eval fuel source (s.setAll (names.zip vs)) = .ok out.1 (t.setAll (names.zip out.2)))
      fun e t => eval fuel source (s.setAll (names.zip vs)) =
        .error e (t.setAll (names.zip vs)) := by
  obtain ⟨f, hf, -⟩ := Environment.exists_of_functionIndex? hindex
  have heval := after_invoke_eval hs hidle hindex hf hsource hnodup hnew hlength fuel
  have hset {t : Session} (ht : s.Kept t) {ws : List Value} (hws : names.length = ws.length) :
      t.setAll (names.zip ws) = t.withGlobals (t.env.globals ++ names.zip ws) := by
    refine Session.setAll_zip hnodup (fun name hname hmem => hnew name hname ?_) hws
    rwa [ht.globalNames] at hmem
  rw [hset (Session.Kept.refl s) hlength]
  unfold After
  rw [call_eq fuel hindex hf]
  cases hend : invoke fuel maxFrames index (vs.map .value) none s with
  | error e t =>
      obtain ⟨hkept, heval⟩ := heval.of_error hend
      rw [bind_of_error hend]
      exact heval.trans (by rw [hset hkept hlength])
  | ok left t =>
      obtain ⟨hkept, heval⟩ := heval.of_ok hend
      have hleft := length_argsAfter f.params vs left.params
      rw [bind_of_ok hend]
      exact ⟨hleft, heval.trans (by rw [hset hkept (hlength.trans hleft.symm)])⟩

end Exec

variable {natives : Native → Prop} {accepted : List String}

/-- In every session that a host can come to, a function may be called on values, or on new
globals that were set to them, by a source of any layout. The value is the same, or the
failure is, and so is the session, but that the globals are there. They hold what the host
gets back for the arguments, and what they were set to if the call fails. -/
theorem eval_call_of_reachable {function : String} {names : List String} {vs : List Value}
    (h : Reachable natives accepted s) (hdeclared : (s.env.functionIndex? function).isSome)
    (hfunction : IsIdentifier function) (hnames : ∀ name ∈ names, IsIdentifier name)
    (hnodup : names.Nodup) (hnew : ∀ name ∈ names, s.env.globalIndex? name = none)
    (hlength : names.length = vs.length) (fuel : Nat) :
    (tokenize (callText function names)).Says (callLexemes function names) ∧
      ∀ source, (tokenize source).Says (callLexemes function names) →
        After (Exec.call fuel function vs) s
          (fun out t => out.2.length = vs.length ∧
            Exec.eval fuel source (s.setAll (names.zip vs)) =
              .ok out.1 (t.setAll (names.zip out.2)))
          fun e t => Exec.eval fuel source (s.setAll (names.zip vs)) =
            .error e (t.setAll (names.zip vs)) := by
  obtain ⟨index, hindex⟩ := Option.isSome_iff_exists.1 hdeclared
  refine ⟨says_callText hfunction hnames, fun source hsource => ?_⟩
  exact Exec.after_call_eval (lasting_closed.reachable .empty h) h.idle hindex hsource
    hnodup (fun name hname => Environment.globalIndex?_eq_none.1 (hnew name hname)) hlength fuel

/-- A function that adds its second argument to the first. -/
def addsTo : String :=
  "DEF add &a b; IMP add \x7b a = a + b; add = a * b; \x7d"

/-- The integers that a call on two arguments gives and leaves in them. -/
def integers : EStateM.Result Failure Session (Value × List Value) → Option (Int64 × Int64 × Int64)
  | .ok (.int n, [.int a, .int b]) _ => some (n, a, b)
  | _ => none

theorem eval_call_of_reachable_loaded :
    ∃ accepted t, Reachable (fun _ => True) accepted (Session.empty.loaded addsTo) ∧
      Exec.call 0 "add" [.int 2, .int 3] (Session.empty.loaded addsTo) =
        .ok (.int 15, [.int 5, .int 3]) t ∧
      Exec.eval 0 (callText "add" ["x", "y"])
        ((Session.empty.loaded addsTo).setAll [("x", .int 2), ("y", .int 3)]) =
          .ok (.int 15) (t.setAll [("x", .int 5), ("y", .int 3)]) := by
  have haccepts : Session.empty.accepts addsTo = true := by decide +kernel
  obtain ⟨accepted, hreachable⟩ :=
    Session.reachable_loaded (@Reachable.start fun _ => True) haccepts
  have hintegers : integers
      (Exec.call 0 "add" [.int 2, .int 3] (Session.empty.loaded addsTo)) = some (15, 5, 3) := by
    decide +kernel
  unfold integers at hintegers
  split at hintegers
  · rename_i n a b t hcall
    cases hintegers
    have hadd : IsIdentifier "add" := by decide +kernel
    have hnames : ∀ name ∈ ["x", "y"], IsIdentifier name := by decide +kernel
    have hlength : ["x", "y"].length = [Value.int 2, .int 3].length := rfl
    obtain ⟨htext, heval⟩ := eval_call_of_reachable hreachable (by decide +kernel) hadd hnames
      (by decide) (by decide +kernel) hlength 0
    exact ⟨_, t, hreachable, hcall, ((heval _ htext).of_ok hcall).2⟩
  · cases hintegers

end Scriptlet
