import Scriptlet.Proofs.Session.Code
import Scriptlet.Proofs.Session.Safety

/-!
# Declared names

Two facts about what is declared hold in every session that a host can come to, whatever the
functions are that it provides. All code mentions only globals and functions that are there
(`lasting_closed`). And the tables of globals and functions change in one way only, which is
that a new name is put at the end, so what outlasts a new name lasts (`lasting_names`). Every
global is declared once, for example, and so is every function.
-/

namespace Scriptlet

variable {s t : Session}

/-! ### Code mentions what is there -/

/-- Whether all code of a session mentions only globals and functions that are there. -/
structure Session.Closed (s : Session) : Prop where
  env : s.env.Sound (fun _ => True) fun _ => True
  program : ∀ r ∈ blockReferences s.program, s.env.Admits (fun _ => True) none r

namespace Session.Closed

theorem empty : Session.empty.Closed :=
  ⟨Environment.sound_empty _ _, List.forall_mem_nil _⟩

/-- The environment is replaced by one that has no less. -/
theorem withEnv {env : Environment} (h : s.Closed) (henv : env.Sound (fun _ => True) fun _ => True)
    (hglobals : s.env.globals.length ≤ env.globals.length)
    (hfunctions : s.env.functions.length ≤ env.functions.length) :
    Session.Closed { s with env := env } :=
  ⟨henv, fun r hr => (h.program r hr).transfer hglobals hfunctions fun _ _ hk => by cases hk⟩

theorem set (h : s.Closed) (name : String) (v : Value) : (s.set name v).Closed := by
  have hglobals : s.env.globals.length ≤ (s.env.set name v).globals.length := by
    simpa [Environment.set_eq] using s.env.globals_le_declare name
  have hfunctions : (s.env.set name v).functions = s.env.functions := s.env.functions_declare name
  exact h.withEnv (h.env.of_functions_eq hfunctions hglobals) hglobals (by simp [hfunctions])

theorem provide (h : s.Closed) (name : String) (params : List String) (native : Native) :
    (s.provide name params native).Closed := by
  unfold Session.provide Environment.provide
  cases s.env.functionIndex? name with
  | none =>
      exact h.withEnv (h.env.addFunction trivial) (Nat.le_refl _) (by simp)
  | some k =>
      exact h.withEnv (h.env.modifyFunction fun _ _ => .inr trivial) (Nat.le_refl _) (by simp)

theorem kept (h : s.Closed) (hst : s.Kept t) : t.Closed := by
  refine ⟨hst.sound h.env, ?_⟩
  rw [hst.program]
  intro r hr
  exact (h.program r hr).transfer (Nat.le_of_eq hst.globals_length.symm)
    (Nat.le_of_eq hst.functions_length.symm) fun _ _ hk => by cases hk

theorem declaring {α : Type} {parser : Parser α} {made : α → List Reference} (h : s.Closed)
    (hgrows : parser.Grows)
    (hscoped : Parser.Scoped ⟨fun _ => True, fun _ => True, fun _ => True, none⟩ [] made parser) :
    After (Exec.declaring parser) s
      (fun a t => t.Closed ∧ ∀ r ∈ made a, t.env.Admits (fun _ => True) none r)
      fun _ t => t.Closed := by
  have hparsed := Exec.after_declaring hgrows (hscoped s.env h.env (List.forall_mem_nil _))
  refine hparsed.mono ?_ ?_
  · rintro a u ⟨⟨hsound, hextends, hmade⟩, hu⟩
    refine ⟨?_, hmade⟩
    rw [hu]
    exact h.withEnv hsound hextends.globals hextends.functions_length
  · rintro e u ⟨-, rfl⟩
    exact h

theorem parse (h : s.Closed) (source : String) :
    After (Exec.parse source) s
      (fun stmts t => t.Closed ∧ ∀ r ∈ blockReferences stmts, t.env.Admits (fun _ => True) none r)
      fun _ t => t.Closed := by
  rw [Exec.parse, after_bind, Exec.after_ofExcept]
  cases (tokenize source).toExcept with
  | error e => exact h
  | ok ts =>
      refine h.declaring (Parser.grows_block .top ts) ?_
      exact Parser.scoped_block _ .top ts _ _ [] ⟨fun _ _ => trivial, fun _ _ => trivial⟩

theorem parseExpr (h : s.Closed) (source : String) :
    After (Exec.parseExpr source) s
      (fun e t => t.Closed ∧ ∀ r ∈ e.references, t.env.Admits (fun _ => True) none r)
      fun _ t => t.Closed := by
  refine Exec.after_parseExpr_of (fun t ts => ?_) fun _ => h
  refine h.declaring (Parser.grows_expression .top _) ?_
  exact Parser.scoped_expression _ rfl (List.cons_ne_nil t ts) []

theorem load (h : s.Closed) (source : String) :
    After (Exec.load source) s (fun _ t => t.Closed) fun _ t => t.Closed := by
  rw [Exec.load, after_bind]
  refine (h.parse source).mono ?_ fun _ _ h => h
  rintro stmts u ⟨hu, hstmts⟩
  refine ⟨hu.env, ?_⟩
  change ∀ r ∈ blockReferences (u.program ++ stmts), u.env.Admits (fun _ => True) none r
  rw [Parser.blockReferences_append, List.forall_mem_append]
  exact ⟨hu.program, hstmts⟩

end Session.Closed

theorem lasting_closed : Lasting Session.Closed where
  kept ht hs := hs.kept ht
  parse source _ hs :=
    (hs.parse source).mono (fun _ _ h => ⟨h.1, trivial⟩) fun _ _ h => ⟨h, trivial⟩
  load source _ hs := (hs.load source).mono (fun _ _ h => ⟨h, trivial⟩) fun _ _ h => ⟨h, trivial⟩
  parseExpr source _ hs :=
    (hs.parseExpr source).mono (fun _ _ h => ⟨h.1, trivial⟩) fun _ _ h => ⟨h, trivial⟩
  set name v hs := hs.set name v
  provide name params native hs := hs.provide name params native

/-! ### The tables of names -/

namespace Environment

/-- The names of the globals, in the order of their declaration. -/
def globalNames (env : Environment) : List String :=
  env.globalTable.names

theorem globalNames_ofLists (globals : List (String × Value)) (functions : List Function) :
    (ofLists globals functions).globalNames = globals.map Prod.fst := by
  rw [globalNames, ← map_fst_globals, globals_ofLists]

/-- The names of the functions, in the order of their declaration. -/
def functionNames (env : Environment) : List String :=
  env.functionTable.names

/-- Whether a property of the names of globals and functions outlasts every new one. -/
structure OutlastsNames (P : List String → List String → Prop) : Prop where
  global : ∀ {globals functions : List String} {name : String}, name ∉ globals →
    P globals functions → P (globals ++ [name]) functions
  function : ∀ {globals functions : List String} {name : String}, name ∉ functions →
    P globals functions → P globals (functions ++ [name])

variable {env env' : Environment} {name : String}

theorem globalIndex?_eq (env : Environment) (name : String) :
    env.globalIndex? name = env.globalNames.findIdx? (· == name) :=
  env.globals_numbered.index?_eq name

theorem functionIndex?_eq (env : Environment) (name : String) :
    env.functionIndex? name = env.functionNames.findIdx? (· == name) :=
  env.functions_numbered.index?_eq name

theorem globalIndex?_eq_none : env.globalIndex? name = none ↔ name ∉ env.globalNames :=
  env.globals_numbered.index?_eq_none

theorem functionIndex?_eq_none : env.functionIndex? name = none ↔ name ∉ env.functionNames :=
  env.functions_numbered.index?_eq_none

/-- A name that is declared is there already, or it is put at the end. -/
theorem globalNames_declare (env : Environment) (name : String) :
    (env.declare name).2.globalNames = env.globalNames ∨
      name ∉ env.globalNames ∧
        (env.declare name).2.globalNames = env.globalNames ++ [name] := by
  cases hname : env.globalIndex? name with
  | some i => exact .inl (by rw [declare_of_some hname])
  | none =>
      refine .inr ⟨globalIndex?_eq_none.1 hname, ?_⟩
      rw [declare, hname]
      exact env.globalTable.names_add name .zero

/-- A property of the names in the tables. -/
def Names (P : List String → List String → Prop) (env : Environment) : Prop :=
  P env.globalNames env.functionNames

namespace Names

variable {P : List String → List String → Prop}

theorem declare (hP : OutlastsNames P) (h : env.Names P) (name : String) :
    (env.declare name).2.Names P := by
  have hfunctions : (env.declare name).2.functionNames = env.functionNames := by
    unfold Environment.declare
    cases env.globalIndex? name <;> rfl
  unfold Names at *
  rw [hfunctions]
  rcases env.globalNames_declare name with heq | ⟨hnew, heq⟩
  · rwa [heq]
  · rw [heq]
    exact hP.global hnew h

theorem set (hP : OutlastsNames P) (h : env.Names P) (name : String) (v : Value) :
    (env.set name v).Names P := by
  exact h.declare hP name

theorem modifyFunction (h : env.Names P) (i : Nat) (change : Function → Function) :
    (env.modifyFunction i change).Names P := by
  exact h

theorem addFunction (hP : OutlastsNames P) (h : env.Names P) {f : Function}
    (hnew : env.functionIndex? f.name = none) : (env.addFunction f).Names P := by
  change P env.globalNames (env.functionTable.add f.name f).names
  rw [Table.names_add]
  exact hP.function (functionIndex?_eq_none.1 hnew) h

theorem provide (hP : OutlastsNames P) (h : env.Names P) (name : String) (params : List Param)
    (run : Native) : (env.provide name params run).Names P := by
  unfold Environment.provide
  cases hname : env.functionIndex? name with
  | none => exact h.addFunction hP hname
  | some i => exact h.modifyFunction i _

theorem define {params : List Param} (hP : OutlastsNames P) (h : env.Names P)
    (hdefine : env.define name params = .ok env') : env'.Names P := by
  unfold Environment.define at hdefine
  split at hdefine
  · rename_i hnone
    cases hdefine
    refine h.addFunction hP ?_
    cases hname : env.functionIndex? name with
    | none => exact hname
    | some i =>
        obtain ⟨f, hf, _⟩ := exists_of_functionIndex? hname
        simp [Environment.function?, hname, hf] at hnone
  · split at hdefine
    · cases hdefine
      exact h.modifyFunction _ _
    · cases hdefine

theorem resolve (hP : OutlastsNames P) (h : env.Names P) (function? : Option Nat)
    (name : String) : (env.resolve function? name).2.Names P := by
  rcases env.resolve_eq_or_declare function? name with heq | heq
  · rw [heq]
    exact h
  · rw [heq]
    exact h.declare hP name

theorem mapM_resolve {scope : Scope} {names : List String} {slots : List Slot}
    (hP : OutlastsNames P) (h : env.Names P)
    (hnames : names.mapM (Parser.resolve scope) env = .ok slots env') : env'.Names P := by
  have hkept : After (names.mapM (Parser.resolve scope)) env (fun _ env' => env'.Names P)
      fun _ _ => True := by
    clear hnames
    induction names generalizing env with
    | nil => exact h
    | cons name names ih =>
        simp only [List.mapM_cons, after_bind]
        exact (ih (h.resolve hP scope.function? name)).mono (fun _ _ h => h) fun _ _ h => h
  exact hkept.of_ok hnames

theorem expression {scope : Scope} {ts : List Token} (hP : OutlastsNames P) (hts : ts ≠ [])
    (h : env.Names P) :
    After (Parser.expression scope ts) env (fun _ env' => env'.Names P) fun _ _ => True := by
  have hresolve (name : String) : Parser.Keeps (Names P) (Parser.resolve scope name) :=
    fun env' henv' => henv'.resolve hP scope.function? name
  exact (Parser.keeps_expression hresolve hts env h).mono (fun _ _ h => h) fun _ _ _ => trivial

theorem head {scope : Scope} {after : Token} {ts : List Token} {e : Expr} {g : Group}
    (hP : OutlastsNames P) (h : env.Names P)
    (hhead : Parser.ReadsHead scope after ts env e g env') : env'.Names P := by
  obtain ⟨x, _, hx, he, _⟩ := hhead
  exact (h.expression hP (takeExpression_append hx).2).of_ok he

/-- Reading a program only adds names. -/
theorem reads {scope : Scope} {ts : List Token} {stmts : List Stmt} (hP : OutlastsNames P)
    (h : env.Names P) (hreads : Parser.Reads scope ts env stmts env') : env'.Names P := by
  induction hreads with
  | nil => exact h
  | expr ht hx he hrest ih => exact ih ((h.expression hP (takeExpression_append hx).2).of_ok he)
  | separator ht hrest ih => exact ih h
  | define ht hn hp hdefine hrest ih => exact ih (h.define hP hdefine)
  | implement ht hn hk hb hbody hrest ihbody ihrest =>
      exact ihrest ((ihbody h).modifyFunction _ _)
  | cond ht hhead hbody hrest ihbody ihrest => exact ihrest (ihbody (h.head hP hhead))
  | loop ht hhead hbody hrest ihbody ihrest => exact ihrest (ihbody (h.head hP hhead))
  | each ht hv hvars hne hhead hbody hrest ihbody ihrest =>
      exact ihrest (ihbody ((h.mapM_resolve hP hvars).head hP hhead))
  | returnNow ht hrest ih => exact ih h
  | breakLoop ht hrest ih => exact ih h
  | continueLoop ht hrest ih => exact ih h
  | braces ht hb hinner hrest ihinner ihrest => exact ihrest (ihinner h)

end Names

end Environment

theorem Session.Kept.globalNames (h : s.Kept t) : t.env.globalNames = s.env.globalNames := by
  rw [Environment.globalNames, Environment.globalNames, ← Environment.map_fst_globals,
    ← Environment.map_fst_globals]
  exact h.globals

theorem Session.Kept.functionNames (h : s.Kept t) :
    t.env.functionNames = s.env.functionNames := by
  apply List.ext_getElem?
  intro i
  simp only [Environment.functionNames, ← Environment.map_name_functions, List.getElem?_map]
  cases hf : s.env.functions[i]? with
  | none =>
      have hlen : t.env.functions.length ≤ i := by
        rw [h.functions_length]
        exact List.getElem?_eq_none_iff.1 hf
      rw [List.getElem?_eq_none hlen]
  | some f =>
      obtain ⟨g, hg, hfg⟩ := h.function hf
      rw [hg]
      exact congrArg some hfg.name

/-- Whatever a host asks for, names are only added, each behind all others. -/
theorem lasting_names {P : List String → List String → Prop}
    (hP : Environment.OutlastsNames P) : Lasting fun s => s.env.Names P where
  kept ht hs := by
    unfold Environment.Names
    rw [ht.functionNames, ht.globalNames]
    exact hs
  parse source s hs := by
    refine (Exec.after_parse source s).mono ?_ ?_
    · rintro stmts t ⟨ts, _, hreads, _⟩
      exact ⟨hs.reads hP hreads, trivial⟩
    · rintro e t ⟨_, rfl⟩
      exact ⟨hs, trivial⟩
  load source s hs := by
    rw [Exec.load, after_bind]
    refine (Exec.after_parse source s).mono ?_ ?_
    · rintro stmts t ⟨ts, _, hreads, _⟩
      exact ⟨hs.reads hP hreads, trivial⟩
    · rintro e t ⟨_, rfl⟩
      exact ⟨hs, trivial⟩
  parseExpr source s hs := by
    refine Exec.after_parseExpr_of (fun t ts => ?_) fun _ => ⟨hs, trivial⟩
    refine (Exec.after_declaring (Parser.grows_expression .top _)
      (hs.expression hP (List.cons_ne_nil t ts))).mono ?_ ?_
    · rintro e u ⟨hu, _⟩
      exact ⟨hu, trivial⟩
    · rintro e u ⟨_, rfl⟩
      exact ⟨hs, trivial⟩
  set name v hs := hs.set hP name v
  provide name params native hs := hs.provide hP name _ native

/-! ### Names are declared once -/

theorem nodup_append_singleton {names : List String} {name : String} (hnew : name ∉ names)
    (h : names.Nodup) : (names ++ [name]).Nodup := by
  rw [List.nodup_append]
  refine ⟨h, List.nodup_cons.2 ⟨List.not_mem_nil, List.nodup_nil⟩, fun a ha b hb heq => ?_⟩
  rw [List.mem_singleton.1 hb] at heq
  exact hnew (heq ▸ ha)

/-- Whether no two globals have the same name. -/
def Environment.Distinct (env : Environment) : Prop :=
  env.globalNames.Nodup

theorem lasting_distinct : Lasting fun s => s.env.Distinct :=
  lasting_names (P := fun globals _ => globals.Nodup)
    ⟨nodup_append_singleton, fun _ h => h⟩

/-- The listing of names is in increasing order. -/
theorem pairwise_mergeSort_le (names : List String) :
    (names.mergeSort (· ≤ ·)).Pairwise (· ≤ ·) := by
  have hpairs : (names.mergeSort (· ≤ ·)).Pairwise fun a b => decide (a ≤ b) = true := by
    apply List.pairwise_mergeSort
    · simpa using fun a b c => String.le_trans
    · simpa using String.le_total
  simpa using hpairs

/-- Whether no two functions have the same name. -/
def Environment.DistinctFunctions (env : Environment) : Prop :=
  env.functionNames.Nodup

theorem lasting_distinctFunctions : Lasting fun s => s.env.DistinctFunctions :=
  lasting_names (P := fun _ functions => functions.Nodup)
    ⟨fun _ h => h, nodup_append_singleton⟩

end Scriptlet
