import Scriptlet.Proofs.Environment
import Scriptlet.Proofs.Program.References

/-!
# What may be mentioned where

`Environment.Admits` says that what a reference points to is there, for code in the body
of a given function or outside of every body. The one thing that may be missing is a
parameter of a function that is `loose`, which is how far the rule can be relied on.

`Environment.Extends` is how declarations change an environment while code is being
parsed, and `Environment.Sound` says that all bodies respect the rule. The main statement
is `Sound.of_functions`: an environment stays sound if each body either is kept, with no
fewer parameters, or respects the rule anew.
-/

namespace Scriptlet

namespace Environment

variable {env env' env'' : Environment} {loose loose' : String → Prop} {function? : Option Nat}

/-- Whether a reference points to something that is there, when it stands in the body of
`function?`. A parameter may be missing if the function is `loose`. -/
def Admits (env : Environment) (loose : String → Prop) (function? : Option Nat) :
    Reference → Prop
  | .cell (.global i _) => i < env.globals.length
  | .cell (.last f _) => f < env.functions.length
  | .cell (.result _) => ∃ k, function? = some k
  | .cell (.param i _) => ∃ k f, function? = some k ∧ env.functions[k]? = some f ∧
      (i < f.params.length ∨ loose f.name)
  | .function f => f < env.functions.length

/-- Whether `env'` has all that `env` has, up to the parameters of functions that are
`loose`. -/
structure Extends (loose : String → Prop) (env env' : Environment) : Prop where
  globals : env.globals.length ≤ env'.globals.length
  functions : ∀ {k : Nat} {f : Function}, env.functions[k]? = some f →
    ∃ g, env'.functions[k]? = some g ∧ g.name = f.name ∧
      (f.params.length ≤ g.params.length ∨ loose f.name)

theorem Extends.refl (loose : String → Prop) (env : Environment) : Extends loose env env :=
  ⟨Nat.le_refl _, fun {_ f} hf => ⟨f, hf, rfl, .inl (Nat.le_refl _)⟩⟩

theorem Extends.trans (h : Extends loose env env') (h' : Extends loose env' env'') :
    Extends loose env env'' := by
  refine ⟨Nat.le_trans h.globals h'.globals, ?_⟩
  intro k f hf
  obtain ⟨g, hg, hname, hparams⟩ := h.functions hf
  obtain ⟨g', hg', hname', hparams'⟩ := h'.functions hg
  refine ⟨g', hg', hname'.trans hname, ?_⟩
  rw [hname] at hparams'
  rcases hparams with hle | hloose
  · exact hparams'.imp_left (Nat.le_trans hle)
  · exact .inr hloose

theorem Extends.mono (h : Extends loose env env') (hloose : ∀ n, loose n → loose' n) :
    Extends loose' env env' := by
  refine ⟨h.globals, ?_⟩
  intro k f hf
  obtain ⟨g, hg, hname, hparams⟩ := h.functions hf
  exact ⟨g, hg, hname, hparams.imp_right (hloose _)⟩

theorem Extends.functions_length (h : Extends loose env env') :
    env.functions.length ≤ env'.functions.length := by
  refine Nat.le_of_not_lt fun hlt => ?_
  obtain ⟨g, hg, _⟩ := h.functions (List.getElem?_eq_getElem hlt)
  exact Nat.lt_irrefl _ (List.getElem?_eq_some_iff.1 hg).1

/-- What is admitted in one environment is admitted in another that has no less. Of the
parameters, only those of the function in whose body it stands matter. -/
theorem Admits.transfer {r : Reference} (hr : env.Admits loose function? r)
    (hglobals : env.globals.length ≤ env'.globals.length)
    (hlength : env.functions.length ≤ env'.functions.length)
    (hfunction : ∀ k f, function? = some k → env.functions[k]? = some f →
      ∃ g, env'.functions[k]? = some g ∧ (f.params.length ≤ g.params.length ∨ loose' g.name) ∧
        (loose f.name → loose' g.name)) :
    env'.Admits loose' function? r := by
  cases r with
  | function f => exact Nat.lt_of_lt_of_le hr hlength
  | cell slot =>
      cases slot with
      | global i name => exact Nat.lt_of_lt_of_le hr hglobals
      | last f name => exact Nat.lt_of_lt_of_le hr hlength
      | result name => exact hr
      | param i name =>
          obtain ⟨k, f, hk, hf, hi⟩ := hr
          obtain ⟨g, hg, hparams, hloose⟩ := hfunction k f hk hf
          refine ⟨k, g, hk, hg, ?_⟩
          rcases hi with hlt | hf'
          · exact hparams.imp_left (Nat.lt_of_lt_of_le hlt)
          · exact .inr (hloose hf')

/-- What was admitted stays admitted. -/
theorem Admits.extends {r : Reference} (hr : env.Admits loose function? r)
    (h : Extends loose env env') : env'.Admits loose function? r := by
  refine hr.transfer h.globals h.functions_length ?_
  intro k f _ hf
  obtain ⟨g, hg, hname, hparams⟩ := h.functions hf
  rw [← hname] at hparams ⊢
  exact ⟨g, hg, hparams, id⟩

/-- Only the function in whose body a reference stands needs to be as loose as before. -/
theorem Admits.mono {r : Reference} (hr : env.Admits loose function? r)
    (hloose : ∀ k f, function? = some k → env.functions[k]? = some f →
      loose f.name → loose' f.name) : env.Admits loose' function? r := by
  refine hr.transfer (Nat.le_refl _) (Nat.le_refl _) ?_
  intro k f hk hf
  exact ⟨f, hf, .inl (Nat.le_refl _), hloose k f hk hf⟩

/-! ### Sound environments -/

/-- Whether a body, as that of the function at an index, mentions only what is there. A
function of the host must be among `natives`. -/
def Fits (env : Environment) (natives : Native → Prop) (loose : String → Prop) (k : Nat) :
    Body → Prop
  | .script stmts => ∀ r ∈ blockReferences stmts, env.Admits loose (some k) r
  | .native run => natives run

/-- Whether all bodies mention only what is there. -/
def Sound (env : Environment) (natives : Native → Prop) (loose : String → Prop) : Prop :=
  ∀ k f, env.functions[k]? = some f → env.Fits natives loose k f.body

variable {natives : Native → Prop}

theorem sound_empty (natives : Native → Prop) (loose : String → Prop) :
    empty.Sound natives loose := by
  intro k f hf
  cases hf

/-- An environment stays sound if each of its bodies was there before, in a function with
no more parameters, or is fit for it anew. -/
theorem Sound.of_functions (h : env.Sound natives loose) (hloose : ∀ n, loose n → loose' n)
    (hglobals : env.globals.length ≤ env'.globals.length)
    (hlength : env.functions.length ≤ env'.functions.length)
    (hfunctions : ∀ k g, env'.functions[k]? = some g →
      (∃ f, env.functions[k]? = some f ∧ g.name = f.name ∧ g.body = f.body ∧
        f.params.length ≤ g.params.length) ∨ env'.Fits natives loose' k g.body) :
    env'.Sound natives loose' := by
  intro k g hg
  rcases hfunctions k g hg with ⟨f, hf, hname, hbody, hparams⟩ | hfits
  · have hfits := h k f hf
    rw [hbody]
    cases hstmts : f.body with
    | native run =>
        rw [hstmts] at hfits
        exact hfits
    | script stmts =>
        rw [hstmts] at hfits
        intro r hr
        refine (hfits r hr).transfer hglobals hlength ?_
        intro k' f' hk hf'
        cases hk
        rw [hf] at hf'
        cases hf'
        refine ⟨g, hg, .inl hparams, ?_⟩
        rw [hname]
        exact hloose _
  · exact hfits

theorem Sound.mono (h : env.Sound natives loose) (hloose : ∀ n, loose n → loose' n) :
    env.Sound natives loose' :=
  h.of_functions hloose (Nat.le_refl _) (Nat.le_refl _)
    fun _ g hg => .inl ⟨g, hg, rfl, rfl, Nat.le_refl _⟩

/-! ### Declarations -/

theorem exists_of_functionIndex? {name : String} {k : Nat} (h : env.functionIndex? name = some k) :
    ∃ f, env.functions[k]? = some f ∧ f.name = name := by
  rw [functionIndex?_eq_findIdx?] at h
  obtain ⟨hk, hname, _⟩ := List.findIdx?_eq_some_iff_getElem.1 h
  exact ⟨_, List.getElem?_eq_getElem hk, by simpa using hname⟩

theorem lt_of_globalIndex? {name : String} {i : Nat} (h : env.globalIndex? name = some i) :
    i < env.globals.length := by
  rw [globalIndex?_eq_findIdx?] at h
  exact (List.findIdx?_eq_some_iff_getElem.1 h).1

/-- A name is resolved to something that is there. -/
theorem admits_resolve (env : Environment) (loose : String → Prop) (function? : Option Nat)
    (name : String) :
    (env.resolve function? name).2.Admits loose function?
      (.cell (env.resolve function? name).1) := by
  unfold resolve
  cases hglobal : env.globalIndex? name with
  | some i => exact lt_of_globalIndex? hglobal
  | none =>
      cases hfunction : env.functionIndex? name with
      | some i =>
          dsimp only
          split
          · rename_i heq
            exact ⟨i, heq⟩
          · obtain ⟨f, hf, _⟩ := exists_of_functionIndex? hfunction
            exact (List.getElem?_eq_some_iff.1 hf).1
      | none =>
          cases hparam : function?.bind fun i => env.functions[i]?.bind (·.paramIndex? name) with
          | some i =>
              obtain ⟨k, hk, hbind⟩ := Option.bind_eq_some_iff.1 hparam
              obtain ⟨f, hf, hi⟩ := Option.bind_eq_some_iff.1 hbind
              exact ⟨k, f, hk, hf, .inl (List.findIdx?_eq_some_iff_getElem.1 hi).1⟩
          | none =>
              dsimp only
              simp [declare_of_none hglobal, Admits]

theorem globals_le_declare (env : Environment) (name : String) :
    env.globals.length ≤ (env.declare name).2.globals.length := by
  cases hname : env.globalIndex? name with
  | some i => exact Nat.le_of_eq (by rw [declare_of_some hname])
  | none => simp [declare_of_none hname]

theorem functions_resolve (env : Environment) (function? : Option Nat) (name : String) :
    (env.resolve function? name).2.functions = env.functions := by
  rcases env.resolve_eq_or_declare function? name with heq | heq
  · rw [heq]
  · rw [heq, functions_declare]

theorem globals_le_resolve (env : Environment) (function? : Option Nat) (name : String) :
    env.globals.length ≤ (env.resolve function? name).2.globals.length := by
  rcases env.resolve_eq_or_declare function? name with heq | heq
  · exact Nat.le_of_eq (by rw [heq])
  · rw [heq]
    exact env.globals_le_declare name

/-- More globals do no harm. -/
theorem extends_of_functions_eq (loose : String → Prop)
    (hfunctions : env'.functions = env.functions)
    (hglobals : env.globals.length ≤ env'.globals.length) : Extends loose env env' := by
  refine ⟨hglobals, ?_⟩
  intro k f hf
  exact ⟨f, by rw [hfunctions, hf], rfl, .inl (Nat.le_refl _)⟩

theorem Sound.of_functions_eq (h : env.Sound natives loose)
    (hfunctions : env'.functions = env.functions)
    (hglobals : env.globals.length ≤ env'.globals.length) : env'.Sound natives loose := by
  refine h.of_functions (fun _ hn => hn) hglobals (Nat.le_of_eq (by rw [hfunctions])) ?_
  intro k g hg
  rw [hfunctions] at hg
  exact .inl ⟨g, hg, rfl, rfl, Nat.le_refl _⟩

/-- A function whose parameters are replaced must be loose, as far as code that is being
parsed is concerned. -/
theorem extends_modifyFunction {k : Nat} {change : Function → Function}
    (h : ∀ f, env.functions[k]? = some f →
      f.params.length ≤ (change f).params.length ∨ loose f.name) :
    Extends loose env (env.modifyFunction k change) := by
  refine ⟨Nat.le_refl _, ?_⟩
  intro j f hf
  rw [functions_modifyFunction]
  by_cases hkj : k = j
  · subst hkj
    exact ⟨{ change f with name := f.name }, by simp [hf], rfl, h f hf⟩
  · exact ⟨f, by simp [hf, hkj], rfl, .inl (Nat.le_refl _)⟩

theorem Sound.modifyFunction {k : Nat} {change : Function → Function}
    (h : env.Sound natives loose)
    (hfits : ∀ f, env.functions[k]? = some f →
      ((change f).body = f.body ∧ f.params.length ≤ (change f).params.length) ∨
      (env.modifyFunction k change).Fits natives loose k (change f).body) :
    (env.modifyFunction k change).Sound natives loose := by
  refine h.of_functions (fun _ hn => hn) (Nat.le_refl _) (by simp) ?_
  intro j g hg
  simp only [functions_modifyFunction, List.getElem?_modify] at hg
  by_cases hkj : k = j
  · subst hkj
    obtain ⟨f, hf, rfl⟩ := Option.map_eq_some_iff.1 (by simpa using hg)
    refine (hfits f hf).imp_left ?_
    rintro ⟨hbody, hparams⟩
    exact ⟨f, hf, rfl, hbody, hparams⟩
  · simp only [hkj, if_false, Option.map_eq_map, Option.map_id_fun', id] at hg
    exact .inl ⟨g, hg, rfl, rfl, Nat.le_refl _⟩

theorem extends_addFunction (loose : String → Prop) (env : Environment) (f : Function) :
    Extends loose env (env.addFunction f) := by
  refine ⟨Nat.le_refl _, ?_⟩
  intro k g hg
  refine ⟨g, ?_, rfl, .inl (Nat.le_refl _)⟩
  rw [functions_addFunction, List.getElem?_append_left (List.getElem?_eq_some_iff.1 hg).1, hg]

theorem Sound.addFunction {f : Function} (h : env.Sound natives loose)
    (hfits : (env.addFunction f).Fits natives loose env.functions.length f.body) :
    (env.addFunction f).Sound natives loose := by
  refine h.of_functions (fun _ hn => hn) (Nat.le_refl _) (by simp) ?_
  intro k g hg
  rw [functions_addFunction, List.getElem?_append] at hg
  split at hg
  · exact .inl ⟨g, hg, rfl, rfl, Nat.le_refl _⟩
  · rename_i hk
    have hzero : k = env.functions.length := by
      have := (List.getElem?_eq_some_iff.1 hg).1
      simp only [List.length_singleton] at this
      omega
    subst hzero
    simp only [Nat.sub_self, List.getElem?_cons_zero, Option.some.injEq] at hg
    subst hg
    exact .inr hfits

end Environment

end Scriptlet
