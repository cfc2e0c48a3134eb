import Scriptlet.Proofs.Session.Provided

/-!
# Functions of the host that change an argument

A program calls a function of the host on a cell and further arguments. The function works on
the cells of its frame, which hold copies of what the arguments held. When it has succeeded, its
first parameter goes back to the cell, if it is passed by reference, and this is all that becomes
of the globals (`Exec.IsCall.of_ok`). When it has failed, nothing does (`Exec.IsCall.of_fails`).

`Exec.IsCall` says in which ways a call can be run. Sources that call a function on names of
globals are among them (`Exec.isCall_globals`).
-/

namespace Scriptlet

/-- Whether a function is still as a host provided it. Calls with more arguments may have added
parameters, which are passed by value. -/
def Environment.Declares (env : Environment) (f : Session.Provided) : Prop :=
  ∃ index g added, env.functionIndex? f.name = some index ∧ env.functions[index]? = some g ∧
    g.body = .native f.native ∧ g.params = f.params.map Param.ofString ++ added ∧
    ∀ p ∈ added, p.byRef = false

theorem Environment.Declares.kept {s t : Session} {f : Session.Provided}
    (h : s.env.Declares f) (hst : s.Kept t) : t.env.Declares f := by
  obtain ⟨index, g, added, hindex, hg, hbody, hparams, hadded⟩ := h
  obtain ⟨g', hg', hkept⟩ := hst.function hg
  obtain ⟨more, hmore, hvalue⟩ := hkept.extended
  refine ⟨index, g', added ++ more, ?_, hg', hkept.body.trans hbody, ?_, ?_⟩
  · rw [functionIndex?_eq, hst.functionNames, ← functionIndex?_eq, hindex]
  · rw [hmore, hparams, List.append_assoc]
  · rw [List.forall_mem_append]
    exact ⟨hadded, hvalue⟩

/-- A function that has the parameters with which it was provided. -/
theorem Environment.Provides.declares {env : Environment} {f : Session.Provided}
    (h : env.Provides f.name f.native)
    (hparams : (env.function? f.name).map (·.2.params) = some (f.params.map Param.ofString)) :
    env.Declares f := by
  obtain ⟨index, g, hindex, hg, hbody⟩ := h
  rw [function?, hindex, Option.bind_some, hg] at hparams
  refine ⟨index, g, [], hindex, hg, hbody, ?_, List.forall_mem_nil _⟩
  rw [List.append_nil]
  exact Option.some.inj hparams

/-- Whether a function of the host fails on a frame with an error of running. -/
def Native.Fails (run : Native) (frame : Frame) : Prop :=
  ∃ e : Error, run frame = .error (.error e) ∧ e.cause.kind = .runtime

/-- Whether an action fails in a session with an error of running, and leaves all globals as
they are. -/
def Exec.FailsCleanly (run : Exec Value) (s : Session) : Prop :=
  ∃ e t, run s = .error (.error e) t ∧ e.cause.kind = .runtime ∧ t.env.globals = s.env.globals

/-! ### Arguments -/

/-- Whether an argument has a value in a session, which evaluating it leaves as it is. -/
def Argument.Gives (fuel : Nat) (s : Session) (arg : Argument) (v : Value) : Prop :=
  ∃ source, evalArguments (invoke fuel maxFrames) [arg] s = .ok [source] s ∧
    source.valueIn s = .ok v

section Calls

variable {fuel index : Nat} {s : Session} {name : String} {args : List Argument}
  {vs : List Value} {run : Exec Value} {slot : Slot} {v w result : Value}

theorem Argument.gives_cell (h : s.cell slot = .ok v) : (cell slot).Gives fuel s v := by
  refine ⟨.cell slot, ?_, h⟩
  rw [evalArguments, bind_of_ok (discard_of_ok (read_of_cell h)), evalArguments]
  rfl

theorem evalArguments_of_gives (h : List.Forall₂ (Argument.Gives fuel s) args vs) :
    ∃ sources, evalArguments (invoke fuel maxFrames) args s = .ok sources s ∧
      sources.map (Source.valueIn s) = vs.map .ok := by
  induction h with
  | nil =>
      refine ⟨[], ?_, rfl⟩
      rw [evalArguments]
      rfl
  | @cons arg v args vs hfirst hrest ih =>
      obtain ⟨source, heval, hsource⟩ := hfirst
      obtain ⟨sources, hevals, hsources⟩ := ih
      refine ⟨source :: sources, ?_, ?_⟩
      · rw [← List.singleton_append, evalArguments_append, bind_of_ok heval, bind_of_ok hevals]
        rfl
      · rw [List.map_cons, List.map_cons, hsource, hsources]

/-! ### The call -/

/-- The ways to run a call whose arguments are still to be evaluated: as an expression of a
program, or by a source that is read as this expression. -/
inductive Exec.IsCall (fuel : Nat) (s : Session) (name : String) (args : List Argument) :
    Exec Value → Prop where
  | expr {index : Nat} (hindex : s.env.functionIndex? name = some index) (pos start : Position) :
      IsCall fuel s name args
        (evalExpr (invoke fuel maxFrames) (.mk [.call index name args pos] start))
  | source {index : Nat} {pos start : Position} {source : String}
      (hindex : s.env.functionIndex? name = some index)
      (hread : parseExpr source s = .ok (.mk [.call index name args pos] start) s) :
      IsCall fuel s name args (eval fuel source)

/-- However a call is run, its value is the result with which the function ends. -/
theorem Exec.IsCall.run_eq (h : IsCall fuel s name args run)
    (hindex : s.env.functionIndex? name = some index) :
    ∃ pos, run s =
      (do return (← evalCall (invoke fuel maxFrames) index args (some pos)).result) s := by
  cases h with
  | expr hindex' pos start =>
      cases hindex.symm.trans hindex'
      exact ⟨pos, congrFun (evalExpr_evalCall ..) s⟩
  | @source _ pos start source hindex' hread =>
      cases hindex.symm.trans hindex'
      refine ⟨pos, ?_⟩
      rw [eval, bind_of_ok hread, evalExpr_evalCall]

/-- A call on a cell and further arguments, once these are evaluated. -/
theorem Exec.IsCall.run_eq_invoke (h : IsCall fuel s name (.cell slot :: args) run)
    (hindex : s.env.functionIndex? name = some index) (hslot : s.cell slot = .ok v)
    (hargs : List.Forall₂ (Argument.Gives fuel s) args vs) :
    ∃ sources pos, (Source.cell slot :: sources).map (Source.valueIn s) = (v :: vs).map .ok ∧
      run s = (do
        return (← invoke fuel maxFrames index (.cell slot :: sources) (some pos)).result) s := by
  obtain ⟨pos, hrun⟩ := h.run_eq hindex
  obtain ⟨sources, heval, hsources⟩ := evalArguments_of_gives hargs
  refine ⟨sources, pos, ?_, ?_⟩
  · rw [List.map_cons, List.map_cons, hsources, Source.valueIn, hslot]
  · rw [hrun, evalCall, bind_assoc, evalArguments, bind_assoc,
      bind_of_ok (discard_of_ok (read_of_cell hslot)), bind_assoc, bind_of_ok heval]
    rfl

theorem copies_byValue {params : List Param} (h : ∀ q ∈ params, q.byRef = false)
    (sources : List Source) (ws : List Value) : copies params sources ws = [] := by
  rw [copies, List.filterMap_eq_nil_iff]
  rintro ⟨⟨q, source⟩, w⟩ hmem
  have hq : q.byRef = false := h q (List.of_mem_zip (List.of_mem_zip hmem).1).1
  cases source with
  | cell slot => simp [hq]
  | value v => rfl

/-- If the parameters after the first are passed by value, then at most the first is copied
back, whatever the number of arguments. -/
theorem copies_paramsFor {p : Param} {params : List Param} (h : ∀ q ∈ params, q.byRef = false)
    (argCount : Nat) (sources : List Source) (ws : List Value) :
    copies (Function.paramsFor (p :: params) argCount) (.cell slot :: sources) (w :: ws) =
      if p.byRef then [(slot, w)] else [] := by
  have hvalue : ∀ q ∈ params ++ (List.range' (params.length + 1)
      (argCount - (params.length + 1))).map Param.extra, q.byRef = false := by
    rw [List.forall_mem_append]
    refine ⟨h, fun q hq => ?_⟩
    obtain ⟨i, -, rfl⟩ := List.mem_map.1 hq
    rfl
  rw [Function.paramsFor, List.cons_append, List.length_cons, copies_cell, copies_byValue hvalue]

/-- The first cell of a frame, after a function of the host has changed it. -/
theorem Function.params_adopt_setArg (g : Function) (v : Value) (vs : List Value)
    (w result : Value) :
    ∃ ws, ((g.frame (v :: vs)).adopt
      (((g.frame (v :: vs)).setArg 0 w).setResult result)).params = w :: ws :=
  ⟨_, List.mapIdx_cons⟩

namespace Exec.IsCall

variable {f : Session.Provided} {p : Param} {params : List Param}

/-- A function of the host that takes all parameters by value, but perhaps the first, can change
what the first argument holds and nothing else among the globals. -/
theorem of_ok (h : IsCall fuel s f.name (.cell slot :: args) run) (hf : s.env.Declares f)
    (hroom : s.frames.length < maxFrames) (hslot : s.cell slot = .ok v)
    (hargs : List.Forall₂ (Argument.Gives fuel s) args vs)
    (hparams : f.params.map Param.ofString = p :: params)
    (hvalue : ∀ q ∈ params, q.byRef = false)
    (hnative : ∀ g : Function, f.native (g.frame (v :: vs)) =
      .ok (((g.frame (v :: vs)).setArg 0 w).setResult result)) :
    ∃ t, run s = .ok result t ∧ s.Kept t ∧
      t.env.globals = if p.byRef then (s.setCell slot w).env.globals else s.env.globals := by
  obtain ⟨index, g, added, hindex, hg, hbody, hall, hadded⟩ := hf
  obtain ⟨sources, pos, hsources, hrun⟩ := h.run_eq_invoke hindex hslot hargs
  obtain ⟨t, ht, hglobals⟩ :=
    invoke_native_of_ok fuel (some pos) hg hbody hroom hsources (hnative g)
  have hkept := (kept_invoke fuel maxFrames index (.cell slot :: sources) (some pos) s s
    (Session.Kept.refl s)).of_ok ht
  refine ⟨t, ?_, hkept.1, ?_⟩
  · rw [hrun, bind_of_ok ht]
    rfl
  · have hrest : ∀ q ∈ params ++ added, q.byRef = false := by
      rw [List.forall_mem_append]
      exact ⟨hvalue, hadded⟩
    obtain ⟨ws, hws⟩ := g.params_adopt_setArg v vs w result
    rw [hglobals, hall, hparams, List.cons_append, hws, copies_paramsFor hrest]
    split <;> rfl

theorem of_fails (h : IsCall fuel s f.name (.cell slot :: args) run) (hf : s.env.Declares f)
    (hroom : s.frames.length < maxFrames) (hslot : s.cell slot = .ok v)
    (hargs : List.Forall₂ (Argument.Gives fuel s) args vs)
    (hnative : ∀ g : Function, f.native.Fails (g.frame (v :: vs))) : run.FailsCleanly s := by
  obtain ⟨index, g, added, hindex, hg, hbody, -, -⟩ := hf
  obtain ⟨sources, pos, hsources, hrun⟩ := h.run_eq_invoke hindex hslot hargs
  obtain ⟨e, he, hkind⟩ := hnative g
  obtain ⟨t, ht, hglobals⟩ := invoke_native_of_error fuel (some pos) hg hbody hroom hsources he
  refine ⟨e, t, ?_, hkind, hglobals⟩
  rw [hrun, bind_of_error ht]

end Exec.IsCall

end Calls

/-! ### Sources on names of globals -/

section Sources

variable {s : Session} {name source : String} {index : Nat} {globals : List (String × Nat)}

theorem Parser.mapM_resolve_of_globalIndex? {env : Environment} (scope : Scope)
    (h : ∀ g ∈ globals, env.globalIndex? g.1 = some g.2) :
    (globals.map (·.1)).mapM (resolve scope) env =
      .ok (globals.map fun g => .global g.2 g.1) env := by
  induction globals with
  | nil => rfl
  | cons g globals ih =>
      obtain ⟨hg, hglobals⟩ := List.forall_mem_cons.1 h
      have hslot : env.resolve scope.function? g.1 = (.global g.2 g.1, env) := by
        rw [Environment.resolve, hg]
      have hresolve : resolve scope g.1 env = .ok (.global g.2 g.1) env :=
        congrArg (fun found : Slot × Environment => EStateM.Result.ok found.1 found.2) hslot
      rw [List.map_cons, List.mapM_cons, bind_of_ok hresolve, bind_of_ok (ih hglobals)]
      rfl

/-- Every source that is a call on names of globals is a way to run this call. -/
theorem Exec.isCall_globals (fuel : Nat) (hindex : s.env.functionIndex? name = some index)
    (hglobals : ∀ g ∈ globals, s.env.globalIndex? g.1 = some g.2)
    (hsource : (tokenize source).Says (callLexemes name (globals.map (·.1)))) :
    IsCall fuel s name (globals.map fun g => .cell (.global g.2 g.1)) (eval fuel source) := by
  obtain ⟨pos, hparse⟩ := parseExpr_call hsource
  have hcallee : Parser.callee name pos s.env = .ok index s.env := by
    rw [Parser.callee, bind_of_ok (Parser.get_eq_ok s.env), hindex]
    rfl
  have hread : parseExpr source s = .ok
      (.mk [.call index name (globals.map fun g => .cell (.global g.2 g.1)) pos] pos) s := by
    rw [hparse]
    refine declaring_of_ok ?_
    rw [bind_of_ok hcallee, bind_of_ok (Parser.mapM_resolve_of_globalIndex? .top hglobals),
      List.map_map]
    rfl
  exact .source hindex hread

end Sources

end Scriptlet
