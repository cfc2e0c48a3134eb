import Scriptlet.Proofs.Parsing.Growth
import Scriptlet.Proofs.Parsing.Soundness

/-!
# What parsing accepts

`Reads scope ts env stmts env'` is the relation between the tokens that a parser accepts and
the statements it makes of them, with one rule for each form of statement. It has no rules
for what is refused, so it is the form of induction for all that holds of accepted programs.
The main statement is `reads_block`: what `Parser.block` accepts is related in this way.

Places of tokens are of no account in a success. That is why the rules leave open the place
at which the end of the tokens would be reported.
-/

namespace Scriptlet

namespace Environment

/-- Whether the bodies of all functions satisfy `good`. -/
def Bodies (env : Environment) (good : Body → Prop) : Prop :=
  ∀ f ∈ env.functions, good f.body

variable {env env' : Environment} {good : Body → Prop}

theorem Bodies.of_functions_eq (h : env.Bodies good) (heq : env'.functions = env.functions) :
    env'.Bodies good := by
  unfold Bodies
  rw [heq]
  exact h

theorem Bodies.addFunction {f : Function} (h : env.Bodies good) (hf : good f.body) :
    (env.addFunction f).Bodies good := by
  intro g hg
  rcases List.mem_append.1 hg with hold | hnew
  · exact h g hold
  · rw [List.mem_singleton.1 hnew]
    exact hf

theorem Bodies.modifyFunction {k : Nat} {change : Function → Function} (h : env.Bodies good)
    (hchange : ∀ f ∈ env.functions, good (change f).body) :
    (env.modifyFunction k change).Bodies good := by
  intro g hg
  obtain ⟨j, hj⟩ := List.mem_iff_getElem?.1 hg
  simp only [functions_modifyFunction, List.getElem?_modify] at hj
  obtain ⟨f, hf, rfl⟩ := Option.map_eq_some_iff.1 hj
  have hmem : f ∈ env.functions := List.mem_of_getElem? hf
  by_cases hkj : k = j
  · rw [if_pos hkj]
    exact hchange f hmem
  · rw [if_neg hkj]
    exact h f hmem

theorem Bodies.define {name : String} {params : List Param} (h : env.Bodies good)
    (hnil : good (.script [])) (hdefine : env.define name params = .ok env') :
    env'.Bodies good := by
  unfold Environment.define at hdefine
  split at hdefine
  · cases hdefine
    exact h.addFunction hnil
  · split at hdefine
    · cases hdefine
      exact h.modifyFunction h
    · cases hdefine

end Environment

namespace Parser

/-- Whether `head` and the block `g` are read after the word `after`. -/
def ReadsHead (scope : Scope) (after : Token) (ts : List Token) (env : Environment) (head : Expr)
    (g : Group) (env' : Environment) : Prop :=
  ∃ x last, takeExpression after ts = .ok x ∧ expression scope x.inside env = .ok head env' ∧
    takeBlock last x.rest = .ok g

/-- Whether the statements `stmts` are read, and `env` becomes `env'`. -/
inductive Reads : Scope → List Token → Environment → List Stmt → Environment → Prop where
  | nil {scope : Scope} {env : Environment} : Reads scope [] env [] env
  | expr {scope : Scope} {t : Token} {ts : List Token} {x : Extent} {e : Expr} {rest : List Stmt}
      {env env₁ env₂ : Environment} (ht : startsExpression t.lexeme = true)
      (hx : takeExpression t (t :: ts) = .ok x) (he : expression scope x.inside env = .ok e env₁)
      (hrest : Reads scope x.rest env₁ rest env₂) :
      Reads scope (t :: ts) env (.expr e :: rest) env₂
  | separator {scope : Scope} {t : Token} {ts : List Token} {rest : List Stmt}
      {env env₁ : Environment} (ht : t.lexeme = .semicolon ∨ t.lexeme = .comma)
      (hrest : Reads scope ts env rest env₁) : Reads scope (t :: ts) env rest env₁
  | define {scope : Scope} {t : Token} {ts after remaining : List Token} {name : String}
      {pos last : Position} {params : List Param} {rest : List Stmt}
      {env env₁ env₂ : Environment} (ht : t.lexeme = .keyword .defWord)
      (hn : expectName t ts = .ok (name, pos, after))
      (hp : parameters name last false after = .ok (params, remaining))
      (hdefine : env.define name params = .ok env₁)
      (hrest : Reads scope remaining env₁ rest env₂) : Reads scope (t :: ts) env rest env₂
  | implement {scope : Scope} {t : Token} {ts after : List Token} {name : String}
      {pos last : Position} {k : Nat} {g : Group} {body rest : List Stmt}
      {env env₁ env₂ : Environment} (ht : t.lexeme = .keyword .impWord)
      (hn : expectName t ts = .ok (name, pos, after)) (hk : env.functionIndex? name = some k)
      (hb : takeBlock last after = .ok g) (hbody : Reads (.body k) g.inner env body env₁)
      (hrest : Reads scope g.rest
        (env₁.modifyFunction k ({ · with body := .script body })) rest env₂) :
      Reads scope (t :: ts) env rest env₂
  | cond {scope : Scope} {t : Token} {ts : List Token} {test : Expr} {g : Group}
      {body rest : List Stmt} {env env₁ env₂ env₃ : Environment}
      (ht : t.lexeme = .keyword .ifWord) (hhead : ReadsHead scope t ts env test g env₁)
      (hbody : Reads scope g.inner env₁ body env₂) (hrest : Reads scope g.rest env₂ rest env₃) :
      Reads scope (t :: ts) env (.cond test body :: rest) env₃
  | loop {scope : Scope} {t : Token} {ts : List Token} {test : Expr} {g : Group}
      {body rest : List Stmt} {env env₁ env₂ env₃ : Environment}
      (ht : t.lexeme = .keyword .whileWord) (hhead : ReadsHead scope t ts env test g env₁)
      (hbody : Reads scope.inLoop g.inner env₁ body env₂)
      (hrest : Reads scope g.rest env₂ rest env₃) :
      Reads scope (t :: ts) env (.loop scope.nextLabel test body :: rest) env₃
  | each {scope : Scope} {t : Token} {ts after : List Token} {last : Position}
      {names : List String} {vars : List Slot} {items : Expr} {g : Group} {body rest : List Stmt}
      {env env₀ env₁ env₂ env₃ : Environment} (ht : t.lexeme = .keyword .forWord)
      (hv : loopVariables last ts = .ok (names, after))
      (hvars : names.mapM (resolve scope) env = .ok vars env₀) (hne : vars ≠ [])
      (hhead : ReadsHead scope t after env₀ items g env₁)
      (hbody : Reads scope.inLoop g.inner env₁ body env₂)
      (hrest : Reads scope g.rest env₂ rest env₃) :
      Reads scope (t :: ts) env (.each scope.nextLabel vars items body :: rest) env₃
  | returnNow {scope : Scope} {t : Token} {ts : List Token} {rest : List Stmt}
      {env env₁ : Environment} (ht : t.lexeme = .keyword .returnWord)
      (hrest : Reads scope ts env rest env₁) : Reads scope (t :: ts) env (.returnNow :: rest) env₁
  | breakLoop {scope : Scope} {t : Token} {ts : List Token} {rest : List Stmt}
      {env env₁ : Environment} (ht : t.lexeme = .keyword .breakWord)
      (hrest : Reads scope ts env rest env₁) :
      Reads scope (t :: ts) env (.breakLoop scope.loop? :: rest) env₁
  | continueLoop {scope : Scope} {t : Token} {ts : List Token} {rest : List Stmt}
      {env env₁ : Environment} (ht : t.lexeme = .keyword .continueWord)
      (hrest : Reads scope ts env rest env₁) :
      Reads scope (t :: ts) env (.continueLoop scope.loop? :: rest) env₁
  | braces {scope : Scope} {t : Token} {ts : List Token} {last : Position} {g : Group}
      {inner rest : List Stmt} {env env₁ env₂ : Environment} (ht : t.lexeme = .openBrace)
      (hb : takeBlock last (t :: ts) = .ok g) (hinner : Reads scope g.inner env inner env₁)
      (hrest : Reads scope g.rest env₁ rest env₂) :
      Reads scope (t :: ts) env (inner ++ rest) env₂

theorem after_expression (scope : Scope) {ts : List Token} (hts : ts ≠ []) (env : Environment) :
    After (expression scope ts) env (fun _ env' => env'.functions = env.functions)
      fun e _ => ∃ error, e = .error error := by
  have hresolve (name : String) :
      Keeps (fun env' => env'.functions = env.functions) (resolve scope name) :=
    fun env' henv' => (env'.functions_resolve scope.function? name).trans henv'
  exact (keeps_expression hresolve hts env rfl).mono (fun _ _ h => h) fun _ _ h => h.2

theorem after_mapM_resolve (scope : Scope) (names : List String) (env : Environment) :
    After (names.mapM (resolve scope)) env (fun _ env' => env'.functions = env.functions)
      fun _ _ => False := by
  induction names generalizing env with
  | nil => rfl
  | cons name names ih =>
      rw [List.mapM_cons]
      simp only [after_bind]
      have hname := env.functions_resolve scope.function? name
      exact (ih _).mono (fun slots env' hrest => hrest.trans hname) fun _ _ h => h

theorem after_headed (scope : Scope) (after : Token) (last : Position) (ts : List Token)
    (env : Environment) :
    After (headed scope after last ts) env
      (fun h env' => ∃ g, ReadsHead scope after ts env h.1.head g env' ∧
        h.1.body = g.inner ∧ h.1.rest = g.rest)
      fun e _ => ∃ error, e = .error error := by
  unfold headed
  split
  · exact ⟨_, rfl⟩
  · rename_i x hx
    rw [after_bind]
    refine (after_expression scope (takeExpression_append hx).2 env).eq_ok.mono ?_
      fun _ _ h => h
    rintro head env' ⟨hhead, -⟩
    split
    · exact ⟨_, rfl⟩
    · rename_i g hb
      exact ⟨g, ⟨x, last, hx, hhead, hb⟩, rfl, rfl⟩

/-- What a block accepts is read, and what it refuses is an error of the language. -/
theorem reads_block (scope : Scope) (ts : List Token) (env : Environment) :
    After (block scope ts) env (fun stmts env' => Reads scope ts env stmts env')
      fun e _ => ∃ error, e = .error error := by
  induction scope, ts using block.induct generalizing env with
  | case1 scope =>
      rw [block_nil]
      exact Reads.nil
  | case2 scope t ts hs e hx =>
      rw [block_expression hs, hx]
      exact ⟨_, rfl⟩
  | case3 scope t ts hs x hx ih =>
      rw [block_expression hs, hx]
      simp only [after_bind]
      refine (after_expression scope (takeExpression_append hx).2 env).eq_ok.mono ?_
        fun _ _ h => h
      rintro e env₁ ⟨he, -⟩
      exact (ih env₁).mono (fun rest env₂ hrest => .expr hs hx he hrest) fun _ _ h => h
  | case4 scope t ts _ ht ih =>
      rw [block_semicolon ht]
      exact (ih env).mono (fun rest env₁ hrest => .separator (.inl ht) hrest) fun _ _ h => h
  | case5 scope t ts _ ht ih =>
      rw [block_comma ht]
      exact (ih env).mono (fun rest env₁ hrest => .separator (.inr ht) hrest) fun _ _ h => h
  | case6 scope t ts _ ht e hn =>
      rw [block_def ht, hn]
      exact ⟨_, rfl⟩
  | case7 scope t ts last _ ht name pos after hn e hp =>
      rw [block_def ht, hn]
      dsimp only
      rw [hp]
      exact ⟨_, rfl⟩
  | case8 scope t ts last _ ht name pos after hn params rest hp ih =>
      rw [block_def ht, hn]
      dsimp only
      rw [hp]
      dsimp only
      rw [after_bind, define, after_bind, after_get]
      cases hdefine : env.define name params with
      | error cause => exact ⟨_, rfl⟩
      | ok env₁ =>
          exact (ih env₁).mono (fun _ _ hrest => .define ht hn hp hdefine hrest) fun _ _ h => h
  | case9 scope t ts _ ht e hn =>
      rw [block_imp ht, hn]
      exact ⟨_, rfl⟩
  | case10 scope t ts last _ ht name pos after hn ihbody ihrest =>
      rw [block_imp ht, hn]
      dsimp only
      rw [after_bind, implemented, after_bind, after_get]
      cases hk : env.functionIndex? name with
      | none => exact ⟨_, rfl⟩
      | some k =>
          dsimp only
          rw [after_pure]
          cases hb : takeBlock last after with
          | error e => exact ⟨_, rfl⟩
          | ok g =>
              dsimp only
              rw [after_bind]
              refine (ihbody k g hb env).mono (fun body env₁ hbody => ?_) fun _ _ h => h
              rw [after_bind, after_modify]
              refine (ihrest g hb _).mono (fun rest env₂ hrest => ?_) fun _ _ h => h
              exact .implement ht hn hk hb hbody hrest
  | case11 scope t ts _ ht ihbody ihrest =>
      rw [block_if ht, after_bind]
      refine (after_headed scope t _ ts env).mono ?_ fun _ _ h => h
      rintro ⟨h, hlen⟩ env₁ ⟨g, hhead, hbody, hrest⟩
      simp only [after_bind]
      refine (ihbody h hlen env₁).mono (fun body env₂ hb => ?_) fun _ _ h => h
      refine (ihrest h hlen env₂).mono (fun rest env₃ hr => ?_) fun _ _ h => h
      exact .cond ht hhead (hbody ▸ hb) (hrest ▸ hr)
  | case12 scope t ts _ ht ihbody ihrest =>
      rw [block_while ht, after_bind]
      refine (after_headed scope t _ ts env).mono ?_ fun _ _ h => h
      rintro ⟨h, hlen⟩ env₁ ⟨g, hhead, hbody, hrest⟩
      simp only [after_bind]
      refine (ihbody h hlen env₁).mono (fun body env₂ hb => ?_) fun _ _ h => h
      refine (ihrest h hlen env₂).mono (fun rest env₃ hr => ?_) fun _ _ h => h
      exact .loop ht hhead (hbody ▸ hb) (hrest ▸ hr)
  | case13 scope t ts last _ ht e hv =>
      rw [block_for ht, hv]
      exact ⟨_, rfl⟩
  | case14 scope t ts last _ ht names after hv ihbody ihrest =>
      rw [block_for ht, hv]
      dsimp only
      rw [after_bind]
      refine (after_mapM_resolve scope names env).eq_ok.mono ?_ fun _ _ h => h.elim
      rintro vars env₀ ⟨hvars, -⟩
      split
      · exact ⟨_, rfl⟩
      · rename_i hne
        rw [after_bind]
        refine (after_headed scope t last after env₀).mono ?_ fun _ _ h => h
        rintro ⟨h, hlen⟩ env₁ ⟨g, hhead, hbody, hrest⟩
        simp only [after_bind]
        refine (ihbody h hlen env₁).mono (fun body env₂ hb => ?_) fun _ _ h => h
        refine (ihrest h hlen env₂).mono (fun rest env₃ hr => ?_) fun _ _ h => h
        exact .each ht hv hvars (by simpa using hne) hhead (hbody ▸ hb) (hrest ▸ hr)
  | case15 scope t ts _ ht ih =>
      rw [block_return ht, after_bind]
      exact (ih env).mono (fun _ _ hrest => .returnNow ht hrest) fun _ _ h => h
  | case16 scope t ts _ ht ih =>
      rw [block_break ht, after_bind]
      exact (ih env).mono (fun _ _ hrest => .breakLoop ht hrest) fun _ _ h => h
  | case17 scope t ts _ ht ih =>
      rw [block_continue ht, after_bind]
      exact (ih env).mono (fun _ _ hrest => .continueLoop ht hrest) fun _ _ h => h
  | case18 scope t ts last _ ht e hb =>
      rw [block_openBrace ht, hb]
      exact ⟨_, rfl⟩
  | case19 scope t ts last _ ht g hb ihinner ihrest =>
      rw [block_openBrace ht, hb]
      simp only [after_bind]
      refine (ihinner env).mono (fun inner env₁ hinner => ?_) fun _ _ h => h
      exact (ihrest env₁).mono (fun _ _ hrest => .braces ht hb hinner hrest) fun _ _ h => h
  | case20 scope t ts hstart h1 h2 h3 h4 h5 h6 h7 h8 h9 h10 h11 =>
      rw [block_other hstart h1 h2 h3 h4 h5 h6 h7 h8 h9 h10 h11]
      exact ⟨_, rfl⟩

/-! ### What holds of all bodies -/

variable {scope : Scope} {ts : List Token} {env env' : Environment} {stmts : List Stmt}

theorem ReadsHead.functions {after : Token} {head : Expr} {g : Group}
    (h : ReadsHead scope after ts env head g env') : env'.functions = env.functions := by
  obtain ⟨x, _, hx, hhead, _⟩ := h
  exact (after_expression scope (takeExpression_append hx).2 env).of_ok hhead

theorem ReadsHead.subset {after : Token} {head : Expr} {g : Group}
    (h : ReadsHead scope after ts env head g env') : g.inner ⊆ ts ∧ g.rest ⊆ ts := by
  obtain ⟨x, _, hx, _, hb⟩ := h
  have hrest := (takeExpression_isInfix hx).subset
  obtain ⟨hinner, hafter⟩ := takeBlock_isInfix hb
  exact ⟨List.Subset.trans hinner.subset hrest, List.Subset.trans hafter.subset hrest⟩

/-- The bodies that reading gives to functions are read from a part of the tokens. So what
holds of whatever is read from such tokens holds of all bodies afterwards. -/
theorem Reads.bodies {good : Body → Prop} {keep : Token → Prop}
    (hbody : ∀ {k us env₀ body env₁}, (∀ t ∈ us, keep t) →
      Reads (.body k) us env₀ body env₁ → good (.script body))
    (h : Reads scope ts env stmts env') (hts : ∀ t ∈ ts, keep t) (henv : env.Bodies good) :
    env'.Bodies good := by
  have hof {us vs : List Token} (hvs : ∀ t ∈ vs, keep t) (hsub : us ⊆ vs) : ∀ t ∈ us, keep t :=
    fun t ht => hvs t (hsub ht)
  induction h with
  | nil => exact henv
  | expr ht hx he hrest ih =>
      have hsame := (after_expression _ (takeExpression_append hx).2 _).of_ok he
      exact ih (hof hts (takeExpression_isInfix hx).subset) (henv.of_functions_eq hsame)
  | separator ht hrest ih => exact ih (List.forall_mem_cons.1 hts).2 henv
  | @define scope t ts after remaining name pos last params rest env env₁ env₂
      ht hn hp hdefine hrest ih =>
      obtain ⟨target, rfl, _⟩ := expectName_eq hn
      have hnil : good (.script []) := hbody (List.forall_mem_nil keep) (@Reads.nil (.body 0) env)
      have hsub : remaining ⊆ t :: target :: after :=
        List.Subset.trans (parameters_suffix hp).subset fun _ hu => by simp [hu]
      exact ih (hof hts hsub) (henv.define hnil hdefine)
  | @implement scope t ts after name pos last k g body rest env env₁ env₂
      ht hn hk hb hreads hrest ihbody ihrest =>
      obtain ⟨target, rfl, _⟩ := expectName_eq hn
      obtain ⟨hinner, hafter⟩ := takeBlock_isInfix hb
      have hsub : after ⊆ t :: target :: after := fun _ hu => by simp [hu]
      have hkeep := hof hts (List.Subset.trans hinner.subset hsub)
      refine ihrest (hof hts (List.Subset.trans hafter.subset hsub)) ?_
      exact (ihbody hkeep henv).modifyFunction fun _ _ => hbody hkeep hreads
  | cond ht hhead hbody hrest ihbody ihrest =>
      obtain ⟨hinner, hafter⟩ := hhead.subset
      have hts := (List.forall_mem_cons.1 hts).2
      exact ihrest (hof hts hafter)
        (ihbody (hof hts hinner) (henv.of_functions_eq hhead.functions))
  | loop ht hhead hbody hrest ihbody ihrest =>
      obtain ⟨hinner, hafter⟩ := hhead.subset
      have hts := (List.forall_mem_cons.1 hts).2
      exact ihrest (hof hts hafter)
        (ihbody (hof hts hinner) (henv.of_functions_eq hhead.functions))
  | each ht hv hvars hne hhead hbody hrest ihbody ihrest =>
      obtain ⟨hinner, hafter⟩ := hhead.subset
      have hts := hof (List.forall_mem_cons.1 hts).2 (loopVariables_suffix hv).subset
      have hsame := (after_mapM_resolve _ _ _).of_ok hvars
      exact ihrest (hof hts hafter)
        (ihbody (hof hts hinner) (henv.of_functions_eq (hhead.functions.trans hsame)))
  | returnNow ht hrest ih => exact ih (List.forall_mem_cons.1 hts).2 henv
  | breakLoop ht hrest ih => exact ih (List.forall_mem_cons.1 hts).2 henv
  | continueLoop ht hrest ih => exact ih (List.forall_mem_cons.1 hts).2 henv
  | braces ht hb hinner hrest ihinner ihrest =>
      obtain ⟨hin, hafter⟩ := takeBlock_isInfix hb
      exact ihrest (hof hts hafter.subset) (ihinner (hof hts hin.subset) henv)

end Parser

end Scriptlet
