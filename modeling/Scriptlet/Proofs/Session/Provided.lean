import Scriptlet.Proofs.Session.HostCall

/-!
# Functions of the host

`Environment.Provides` says that a name is that of a function with a given operation of the
host as its body. It is so right after the function was provided, and other functions and
globals that come later do not change it. So every function of the standard library is there
once the library has been loaded (`Session.provides_withLibrary`).

A call of such a function changes the globals by what it copies back, and not at all if the
function fails (`invoke_native_of_ok`, `invoke_native_of_error`). One that only gives a result can
be called for this result (`Exec.call_of_setResult`).
-/

namespace Scriptlet

/-- Whether a name is that of a function whose body is the given operation of the host. -/
def Environment.Provides (env : Environment) (name : String) (run : Native) : Prop :=
  ∃ index f, env.functionIndex? name = some index ∧ env.functions[index]? = some f ∧
    f.body = .native run

namespace Environment

variable {env : Environment} {name other : String} {run : Native}

theorem functionIndex?_addFunction (env : Environment) (f : Function) (name : String) :
    (env.addFunction f).functionIndex? name =
      (env.functionIndex? name).or (if f.name = name then some env.functions.length else none) := by
  by_cases hname : f.name = name <;>
    simp [functionIndex?_eq_findIdx?, List.findIdx?_append, hname]

variable {change : Function → Function}

theorem Provides.addFunction (h : env.Provides name run) (f : Function) :
    (env.addFunction f).Provides name run := by
  obtain ⟨index, g, hindex, hg, hbody⟩ := h
  have hlt := (List.getElem?_eq_some_iff.1 hg).1
  refine ⟨index, g, ?_, (List.getElem?_append_left hlt).trans hg, hbody⟩
  rw [functionIndex?_addFunction, hindex]
  rfl

/-- A change to the function of another name leaves it as it is. -/
theorem Provides.modifyFunction {k : Nat} (h : env.Provides name run)
    (hk : env.functionIndex? other = some k) (hne : other ≠ name) :
    (env.modifyFunction k change).Provides name run := by
  obtain ⟨index, f, hindex, hf, hbody⟩ := h
  have hother : k ≠ index := by
    rintro rfl
    obtain ⟨g, hg, hgname⟩ := exists_of_functionIndex? hindex
    obtain ⟨g', hg', hgname'⟩ := exists_of_functionIndex? hk
    rw [hg] at hg'
    cases hg'
    exact hne (hgname'.symm.trans hgname)
  refine ⟨index, f, hindex, ?_, hbody⟩
  rw [functions_modifyFunction, List.getElem?_modify_ne _ _ hother, hf]

theorem provides_addFunction {f : Function} (hnew : env.functionIndex? f.name = none)
    (hbody : f.body = .native run) : (env.addFunction f).Provides f.name run := by
  refine ⟨env.functions.length, f, ?_, List.getElem?_concat_length, hbody⟩
  rw [functionIndex?_addFunction, hnew, if_pos rfl]
  rfl

theorem provides_modifyFunction {k : Nat} (hk : env.functionIndex? name = some k)
    (hbody : ∀ f, (change f).body = .native run) :
    (env.modifyFunction k change).Provides name run := by
  obtain ⟨f, hf, -⟩ := exists_of_functionIndex? hk
  refine ⟨k, { change f with name := f.name }, hk, ?_, hbody f⟩
  rw [functions_modifyFunction, List.getElem?_modify_eq, hf]
  rfl

theorem provides_provide (env : Environment) (name : String) (params : List Param)
    (run : Native) : (env.provide name params run).Provides name run := by
  unfold provide
  cases hindex : env.functionIndex? name with
  | none => exact provides_addFunction hindex rfl
  | some k => exact provides_modifyFunction hindex fun _ => rfl

/-- Other functions of the host leave it as it is. -/
theorem Provides.provide (h : env.Provides name run) (hne : other ≠ name) (params : List Param)
    (native : Native) : (env.provide other params native).Provides name run := by
  unfold Environment.provide
  cases hother : env.functionIndex? other with
  | none => exact h.addFunction _
  | some k => exact h.modifyFunction hother hne

theorem Provides.set (h : env.Provides name run) (global : String) (v : Value) :
    (env.set global v).Provides name run := by
  unfold Provides functionIndex? functions at *
  rwa [functionTable_set]

end Environment

namespace Session

variable {s : Session} {name : String} {run : Native} {fs : List Provided}

theorem provides_provideAll_of_ne (h : s.env.Provides name run) (hfs : ∀ f ∈ fs, f.name ≠ name) :
    (s.provideAll fs).env.Provides name run :=
  provideAll_of_steps (P := fun s => s.env.Provides name run)
    (fun f hf _ hs => hs.provide (hfs f hf) _ _) h

/-- Functions of different names are all there once they have been provided. -/
theorem provides_provideAll (hnodup : (fs.map (·.name)).Nodup) {f : Provided} (hf : f ∈ fs)
    (s : Session) : (s.provideAll fs).env.Provides f.name f.native := by
  induction fs generalizing s with
  | nil => cases hf
  | cons g fs ih =>
      obtain ⟨hg, hnodup⟩ := List.nodup_cons.1 hnodup
      rcases List.mem_cons.1 hf with rfl | hf
      · change ((s.provide f.name f.params f.native).provideAll fs).env.Provides f.name f.native
        refine provides_provideAll_of_ne (Environment.provides_provide ..) ?_
        intro g hfs heq
        exact hg (List.mem_map.2 ⟨g, hfs, heq⟩)
      · exact ih hnodup hf _

theorem provides_setAll (h : s.env.Provides name run) (globals : List (String × Value)) :
    (s.setAll globals).env.Provides name run := by
  induction globals generalizing s with
  | nil => exact h
  | cons g globals ih => exact ih (h.set g.1 g.2)

theorem withLibrary_eq (s : Session) :
    s.withLibrary = ((s.provideAll (Library.conversion ++ Library.array)).setAll
      Library.constants).provideAll Library.math := by
  simp only [withLibrary, provideAll, setAll, List.foldl_append]

/-- Loading the standard library provides all of it, whatever was declared before. -/
theorem provides_withLibrary (s : Session) {f : Provided} (hf : f ∈ Library.functions) :
    s.withLibrary.env.Provides f.name f.native := by
  have hnodup : (Library.functions.map (·.name)).Nodup := by decide
  rw [Library.functions, List.map_append, List.nodup_append] at hnodup
  obtain ⟨hbefore, hmath, hne⟩ := hnodup
  rw [withLibrary_eq]
  rcases List.mem_append.1 hf with hf | hf
  · refine provides_provideAll_of_ne (provides_setAll (provides_provideAll hbefore hf s) _) ?_
    intro g hg heq
    exact hne _ (List.mem_map_of_mem hf) _ (List.mem_map_of_mem hg) heq.symm
  · exact provides_provideAll hmath hf _

end Session

/-! ### Calling them -/

section Calling

variable {s : Session} {index : Nat} {f : Function} {run : Native} {left : Frame}
  {args : List Value} {sources : List Source}

theorem runBody_native {frame : Frame} (h : run frame = .ok left) (call : Caller) (fuel : Nat)
    (s : Session) :
    runBody call fuel frame (.native run) s =
      .ok () { s.modifyFrame (·.adopt left) with printed := s.printed ++ left.printed } := by
  rw [runBody, h]
  rfl

theorem runBody_native_of_error {frame : Frame} {e : Failure} (h : run frame = .error e)
    (call : Caller) (fuel : Nat) (s : Session) :
    runBody call fuel frame (.native run) s = .error e s := by
  rw [runBody, h]
  rfl

theorem Source.within_of_valueIn (h : sources.map (valueIn s) = args.map .ok) :
    Within s.Has sources := by
  intro slot hslot
  have hmem : s.cell slot ∈ args.map Except.ok := h ▸ List.mem_map_of_mem hslot
  obtain ⟨v, -, hv⟩ := List.mem_map.1 hmem
  exact Session.has_iff.2 ⟨v, hv.symm⟩

theorem Session.globals_assign {t : Session} (h : t.env.globals = s.env.globals)
    (assignments : List (Slot × Value)) :
    (t.assign assignments).env.globals = (s.assign assignments).env.globals := by
  induction assignments generalizing s t with
  | nil => exact h
  | cons a assignments ih =>
      refine ih ?_
      obtain ⟨slot, v⟩ := a
      cases slot with
      | global i name =>
          simp only [Session.setCell, Environment.globals_setGlobal, h]
      | _ => exact h

/-- A function of the host that succeeds leaves the frame that it gives. The globals change by
what is copied back, and by nothing else. -/
theorem invoke_native_of_ok (fuel : Nat) (pos? : Option Position)
    (hf : s.env.functions[index]? = some f) (hbody : f.body = .native run)
    (hroom : s.frames.length < maxFrames)
    (hargs : sources.map (Source.valueIn s) = args.map .ok)
    (hrun : run (f.frame args) = .ok left) :
    ∃ t, invoke fuel maxFrames index sources pos? s = .ok ((f.frame args).adopt left) t ∧
      t.env.globals = (s.assign (copies (Function.paramsFor f.params args.length) sources
        ((f.frame args).adopt left).params)).env.globals := by
  have hcalled := called_invoke fuel pos? hf hargs (Source.within_of_valueIn hargs)
  generalize invoke fuel maxFrames index sources pos? s = outcome at hcalled ⊢
  cases hcalled with
  | tooDeep h => omega
  | failed h hended hframes =>
      rw [hbody, runBody_native hrun] at hended
      cases hended
  | done h hended hframes =>
      rw [hbody, runBody_native hrun] at hended
      cases hended
      cases hframes
      refine ⟨_, rfl, Session.globals_assign ?_ _⟩
      rfl

/-- A function of the host that fails has changed no global. -/
theorem invoke_native_of_error (fuel : Nat) (pos? : Option Position)
    (hf : s.env.functions[index]? = some f) (hbody : f.body = .native run)
    (hroom : s.frames.length < maxFrames)
    (hargs : sources.map (Source.valueIn s) = args.map .ok) {e : Failure}
    (hrun : run (f.frame args) = .error e) :
    ∃ t, invoke fuel maxFrames index sources pos? s = .error e t ∧
      t.env.globals = s.env.globals := by
  have hcalled := called_invoke fuel pos? hf hargs (Source.within_of_valueIn hargs)
  generalize invoke fuel maxFrames index sources pos? s = outcome at hcalled ⊢
  cases hcalled with
  | tooDeep h => omega
  | failed h hended hframes =>
      rw [hbody, runBody_native_of_error hrun] at hended
      cases hended
      exact ⟨_, rfl, rfl⟩
  | done h hended hframes =>
      rw [hbody, runBody_native_of_error hrun] at hended
      cases hended

theorem invoke_native (fuel : Nat) (pos? : Option Position)
    (hf : s.env.functions[index]? = some f) (hbody : f.body = .native run)
    (hroom : s.frames.length < maxFrames) (hrun : run (f.frame args) = .ok left) :
    ∃ t, invoke fuel maxFrames index (args.map .value) pos? s =
      .ok ((f.frame args).adopt left) t := by
  have hargs : (args.map Source.value).map (Source.valueIn s) = args.map .ok := by
    rw [List.map_map]
    rfl
  obtain ⟨t, ht, -⟩ := invoke_native_of_ok fuel pos? hf hbody hroom hargs hrun
  exact ⟨t, ht⟩

theorem Frame.adopt_setResult (frame : Frame) (v : Value) :
    frame.adopt (frame.setResult v) = frame.setResult v := by
  have hparams : (frame.params.mapIdx fun i v => frame.params.getD i v) = frame.params := by
    apply List.ext_getElem?
    intro i
    rw [List.getElem?_mapIdx]
    cases hi : frame.params[i]? with
    | none => rfl
    | some w => simp [List.getD, hi]
  simp only [adopt, setResult, hparams]

namespace Exec

theorem argsAfter_self (params : List Param) (args more : List Value) :
    argsAfter params args (args ++ more) = args := by
  induction args generalizing params with
  | nil => cases params <;> rfl
  | cons arg args ih =>
      cases params with
      | nil => rfl
      | cons p params => rw [List.cons_append, argsAfter, ih, ite_self]

/-- A function of the host that only gives a result can be called for it. -/
theorem call_of_setResult {name : String} {v : Value} (fuel : Nat)
    (h : s.env.Provides name run) (hroom : s.frames.length < maxFrames)
    (hrun : ∀ f : Function, run (f.frame args) = .ok ((f.frame args).setResult v)) :
    ∃ t, call fuel name args s = .ok (v, args) t := by
  obtain ⟨index, f, hindex, hf, hbody⟩ := h
  obtain ⟨t, ht⟩ := invoke_native fuel none hf hbody hroom (hrun f)
  refine ⟨t, ?_⟩
  rw [call_eq fuel hindex hf, bind_of_ok ht, Frame.adopt_setResult]
  exact congrArg (fun left => EStateM.Result.ok (v, left) t) (argsAfter_self f.params args _)

end Exec

end Calling

end Scriptlet
