import Scriptlet.Proofs.Environment
import Scriptlet.Proofs.Outcome
import Scriptlet.Proofs.Parsing.Forms

/-!
# Parsing only adds

Parsing changes the environment as it goes, and it may fail after any part of its
changes. `Environment.Grows` is what all these changes have in common: globals and
functions are only added at the end, and no cell is written. Parameters and bodies of
functions may change, which is why they are recorded before parsing.

The main statements are `Parser.grows_block` and `Parser.grows_expression`, for every
outcome, and `Environment.restore_mark`: growth can be undone exactly.
-/

namespace Scriptlet

namespace Environment

/-- Whether `env'` has all globals of `env`, with their values, and all functions, with
their names and last results, each at the same index. -/
structure Grows (env env' : Environment) : Prop where
  globals : env.globals <+: env'.globals
  functions : env.functions.map (fun f => (f.name, f.last)) <+:
    env'.functions.map fun f => (f.name, f.last)

theorem Grows.refl (env : Environment) : Grows env env :=
  ⟨List.prefix_refl _, List.prefix_refl _⟩

theorem Grows.trans {env env' env'' : Environment} (h : Grows env env') (h' : Grows env' env'') :
    Grows env env'' :=
  ⟨h.globals.trans h'.globals, h.functions.trans h'.functions⟩

theorem grows_addFunction (env : Environment) (f : Function) : env.Grows (env.addFunction f) := by
  refine ⟨List.prefix_refl _, ?_⟩
  rw [functions_addFunction, List.map_append]
  exact List.prefix_append _ _

/-- Changing a function in its parameters or body is growth. -/
theorem grows_modifyFunction (env : Environment) (i : Nat) {change : Function → Function}
    (h : ∀ f, (change f).last = f.last) :
    env.Grows (env.modifyFunction i change) := by
  refine ⟨List.prefix_refl _, ?_⟩
  have hsame : (env.modifyFunction i change).functions.map (fun f => (f.name, f.last)) =
      env.functions.map fun f => (f.name, f.last) := by
    apply List.ext_getElem?
    intro j
    rw [functions_modifyFunction, List.getElem?_map, List.getElem?_map, List.getElem?_modify]
    cases env.functions[j]? with
    | none => rfl
    | some f =>
        by_cases hij : i = j
        · simp [hij, h f]
        · simp [hij]
  simp only [hsame, List.prefix_refl]

theorem grows_declare (env : Environment) (name : String) : env.Grows (env.declare name).2 := by
  refine ⟨?_, ?_⟩
  · cases hname : env.globalIndex? name with
    | some i =>
        simp only [declare_of_some hname, List.prefix_refl]
    | none =>
        rw [declare_of_none hname, globals_ofLists]
        exact List.prefix_append _ _
  · simp only [functions_declare, List.prefix_refl]

theorem grows_resolve (env : Environment) (function? : Option Nat) (name : String) :
    env.Grows (env.resolve function? name).2 := by
  rcases env.resolve_eq_or_declare function? name with heq | heq
  · rw [heq]
    exact Grows.refl env
  · rw [heq]
    exact grows_declare env name

theorem grows_define {env env' : Environment} {name : String} {params : List Param}
    (h : env.define name params = .ok env') : env.Grows env' := by
  unfold define at h
  split at h
  · cases h
    exact grows_addFunction env _
  · split at h
    · cases h
      exact grows_modifyFunction env _ fun f => rfl
    · cases h

/-- Functions whose last results are unchanged are written over by those recorded. -/
theorem zipWith_recorded {now saved : List Function}
    (h : saved.map (fun f => (f.name, f.last)) <+: now.map fun f => (f.name, f.last)) :
    List.zipWith Function.restore now saved = saved := by
  induction saved generalizing now with
  | nil => exact List.zipWith_nil_right
  | cons g saved ih =>
      cases now with
      | nil => simp at h
      | cons f now =>
          rw [List.map_cons, List.map_cons, List.cons_prefix_cons] at h
          obtain ⟨hfg, hrest⟩ := h
          obtain ⟨hname, hlast⟩ := Prod.mk.inj hfg
          rw [List.zipWith_cons_cons, ih hrest, Function.restore, ← hname, ← hlast]

/-- Whatever was declared in between, restoring gives the recorded environment back. -/
theorem restore_mark {env env' : Environment} (h : env.Grows env') :
    env'.restore env.mark = env := by
  refine ext_lists ?_ ?_
  · rw [globals_restore, mark, ← length_globals]
    exact (List.prefix_iff_eq_take.1 h.globals).symm
  · rw [functions_restore, mark]
    exact zipWith_recorded h.functions

end Environment

namespace Parser

variable {α β : Type}

/-- Whether a parser lets the environment grow, however it ends. -/
def Grows (p : Parser α) : Prop :=
  ∀ env, After p env (fun _ env' => env.Grows env') fun _ env' => env.Grows env'

theorem Grows.pure (a : α) : Grows (pure a) :=
  fun env => Environment.Grows.refl env

theorem Grows.throw (e : Failure) : Grows (throw e : Parser α) :=
  fun env => Environment.Grows.refl env

theorem Grows.bind {p : Parser α} {f : α → Parser β} (hp : Grows p) (hf : ∀ a, Grows (f a)) :
    Grows (p >>= f) := by
  intro env
  rw [after_bind]
  refine (hp env).mono (fun a env' hgrow => ?_) fun _ _ hgrow => hgrow
  exact (hf a env').mono (fun _ _ h => hgrow.trans h) fun _ _ h => hgrow.trans h

theorem Grows.mapM {f : α → Parser β} (hf : ∀ a, Grows (f a)) (xs : List α) :
    Grows (xs.mapM f) := by
  induction xs with
  | nil => exact Grows.pure []
  | cons x xs ih =>
      rw [List.mapM_cons]
      exact (hf x).bind fun b => ih.bind fun bs => Grows.pure (b :: bs)

theorem Grows.modify {change : Environment → Environment}
    (h : ∀ env : Environment, env.Grows (change env)) : Grows (modify change) :=
  fun env => h env

theorem grows_failAt (cause : Cause) (pos : Position) : Grows (failAt cause pos : Parser α) :=
  Grows.throw _

theorem grows_resolve (scope : Scope) (name : String) : Grows (resolve scope name) :=
  fun env => env.grows_resolve scope.function? name

theorem grows_implemented (name : String) (pos : Position) : Grows (implemented name pos) := by
  refine Grows.bind (fun env => Environment.Grows.refl env) fun env => ?_
  cases env.functionIndex? name with
  | none => exact grows_failAt _ _
  | some i => exact Grows.pure i

theorem grows_define (name : String) (pos : Position) (params : List Param) :
    Grows (define name pos params) := by
  intro env
  unfold define
  rw [after_bind, after_get]
  cases h : env.define name params with
  | error cause => exact grows_failAt cause pos env
  | ok env' => exact Environment.grows_define h

/-! ### Expressions -/

/-- Whether a parser keeps `inv`, however it ends, and fails only by an error of the
language. -/
def Keeps (inv : Environment → Prop) (p : Parser α) : Prop :=
  ∀ env, inv env → After p env (fun _ env' => inv env')
    fun e env' => inv env' ∧ ∃ error, e = .error error

section Keeps

variable {inv : Environment → Prop}

theorem Keeps.pure (a : α) : Keeps inv (pure a) :=
  fun _ henv => henv

theorem Keeps.throw (e : Error) : Keeps inv (throw (.error e) : Parser α) :=
  fun _ henv => ⟨henv, e, rfl⟩

theorem Keeps.bind {p : Parser α} {f : α → Parser β} (hp : Keeps inv p)
    (hf : ∀ a, Keeps inv (f a)) : Keeps inv (p >>= f) := by
  intro env henv
  rw [after_bind]
  exact (hp env henv).mono (fun a env' henv' => hf a env' henv') fun _ _ henv' => henv'

theorem Keeps.map {p : Parser α} (f : α → β) (hp : Keeps inv p) : Keeps inv (f <$> p) := by
  intro env henv
  rw [after_map]
  exact hp env henv

theorem keeps_callee (name : String) (pos : Position) : Keeps inv (callee name pos) := by
  refine Keeps.bind (fun env henv => henv) fun env => ?_
  cases env.functionIndex? name with
  | none => exact Keeps.throw _
  | some i => exact Keeps.pure i

theorem keeps_simpleArgument {scope : Scope} {part : List Token} {simple : Parser Argument}
    (hresolve : ∀ name, Keeps inv (resolve scope name))
    (h : simpleArgument scope part = some simple) : Keeps inv simple := by
  unfold simpleArgument at h
  split at h
  · cases h
    exact (hresolve _).map _
  · obtain ⟨v, _, rfl⟩ := Option.map_eq_some_iff.1 h
    exact Keeps.pure _
  · cases h

/-- Terms, elements and arguments change the environment by resolving names only. -/
theorem keeps_terms_elements_arguments {scope : Scope}
    (hresolve : ∀ name, Keeps inv (resolve scope name)) :
    (∀ operand ts, Keeps inv (terms scope operand ts)) ∧
      (∀ parts, Keeps inv (elements scope parts)) ∧
        ∀ parts, Keeps inv (arguments scope parts) := by
  apply terms.mutual_induct scope (fun operand ts => Keeps inv (terms scope operand ts))
    (fun parts => Keeps inv (elements scope parts)) fun parts => Keeps inv (arguments scope parts)
  case case1 =>
    intro operand
    rw [terms_nil]
    exact Keeps.pure []
  case case2 =>
    intro operand t ts v hv ih
    rw [terms_literal hv]
    exact ih.bind fun rest => Keeps.pure _
  case case3 =>
    intro operand t ts _ o ho v rest hs ih
    rw [terms_op ho, hs]
    exact ih.bind fun rest => Keeps.pure _
  case case4 =>
    intro operand t ts _ o ho hs ih
    rw [terms_op ho, hs]
    exact ih.bind fun rest => Keeps.pure _
  case case5 =>
    intro operand t ts _ word hw paren after hp ihargs ihrest
    rw [terms_name hw, hp]
    refine (keeps_callee word t.pos).bind fun function => ?_
    cases hg : Bracket.paren.group? 0 after with
    | none => exact Keeps.throw _
    | some g =>
        exact (ihargs g hg).bind fun args => (ihrest g hg).bind fun rest => Keeps.pure _
  case case6 =>
    intro operand t ts _ word hw hp ih
    rw [terms_name hw, hp]
    exact (hresolve word).bind fun slot => ih.bind fun rest => Keeps.pure _
  case case7 =>
    intro t ts _ hb hg
    rw [terms_openBrace hb, hg]
    exact Keeps.throw _
  case case8 =>
    intro t ts _ hb g hg ihitems ihrest
    rw [terms_openBrace hb, hg]
    exact ihitems.bind fun items => ihrest.bind fun rest => Keeps.pure _
  case case9 =>
    intro operand t ts _ hb hoperand
    rw [terms_openBrace hb, if_neg hoperand]
    exact Keeps.throw _
  case case10 =>
    intro operand t ts _ hp ih
    rw [terms_openParen hp]
    exact ih.bind fun rest => Keeps.pure _
  case case11 =>
    intro operand t ts _ hp ih
    rw [terms_closeParen hp]
    exact ih.bind fun rest => Keeps.pure _
  case case12 =>
    intro operand t ts hliteral hop hname hbrace hopen hclose
    rw [terms_other hliteral hop hname hbrace hopen hclose]
    exact Keeps.throw _
  case case13 =>
    rw [elements_nil]
    exact Keeps.pure []
  case case14 =>
    intro parts ih
    rw [elements_skip]
    exact ih
  case case15 =>
    intro t ts parts ihitem ihrest
    rw [elements_cons]
    exact ihitem.bind fun item => ihrest.bind fun rest => Keeps.pure _
  case case16 =>
    rw [arguments_nil]
    exact Keeps.pure []
  case case17 =>
    intro parts ih
    rw [arguments_skip]
    exact ih
  case case18 =>
    intro t ts parts simple hsimple ih
    rw [arguments_simple parts hsimple]
    exact (keeps_simpleArgument hresolve hsimple).bind fun arg => ih.bind fun rest => Keeps.pure _
  case case19 =>
    intro t ts parts hsimple ih ihterms
    rw [arguments_expr parts hsimple]
    exact (ihterms.map _).bind fun arg => ih.bind fun rest => Keeps.pure _

theorem keeps_expression {scope : Scope} (hresolve : ∀ name, Keeps inv (resolve scope name))
    {ts : List Token} (hts : ts ≠ []) : Keeps inv (expression scope ts) := by
  cases ts with
  | nil => exact absurd rfl hts
  | cons t ts =>
      have hterms := (keeps_terms_elements_arguments hresolve).1 true (t :: ts)
      exact hterms.bind fun _ => Keeps.pure _

end Keeps

theorem grows_expression (scope : Scope) (ts : List Token) : Grows (expression scope ts) := by
  cases ts with
  | nil => exact Grows.throw _
  | cons t ts =>
      intro env
      have hresolve : ∀ name, Keeps (env.Grows ·) (resolve scope name) :=
        fun name env' henv' => henv'.trans (env'.grows_resolve scope.function? name)
      have hkeeps := keeps_expression hresolve (List.cons_ne_nil t ts)
      exact (hkeeps env (Environment.Grows.refl env)).mono (fun _ _ h => h) fun _ _ h => h.1

/-! ### Statements -/

theorem grows_headed (scope : Scope) (after : Token) (last : Position) (ts : List Token) :
    Grows (headed scope after last ts) := by
  unfold headed
  split
  · exact Grows.throw _
  · refine (grows_expression scope _).bind fun head => ?_
    split
    · exact Grows.throw _
    · exact Grows.pure _

/-- A block lets the environment grow, whatever the tokens are. -/
theorem grows_block (scope : Scope) (ts : List Token) : Grows (block scope ts) := by
  induction scope, ts using block.induct with
  | case1 scope =>
      rw [block_nil]
      exact Grows.pure []
  | case2 scope t ts hs e hx =>
      rw [block_expression hs, hx]
      exact Grows.throw _
  | case3 scope t ts hs x hx ih =>
      rw [block_expression hs, hx]
      exact (grows_expression scope _).bind fun e => ih.bind fun rest => Grows.pure _
  | case4 scope t ts _ ht ih =>
      rw [block_semicolon ht]
      exact ih
  | case5 scope t ts _ ht ih =>
      rw [block_comma ht]
      exact ih
  | case6 scope t ts _ ht e hn =>
      rw [block_def ht, hn]
      exact Grows.throw _
  | case7 scope t ts last _ ht name pos after hn e hp =>
      rw [block_def ht, hn]
      dsimp only
      rw [hp]
      exact Grows.throw _
  | case8 scope t ts last _ ht name pos after hn params rest hp ih =>
      rw [block_def ht, hn]
      dsimp only
      rw [hp]
      exact (grows_define name pos params).bind fun _ => ih
  | case9 scope t ts _ ht e hn =>
      rw [block_imp ht, hn]
      exact Grows.throw _
  | case10 scope t ts last _ ht name pos after hn ihbody ihrest =>
      rw [block_imp ht, hn]
      refine (grows_implemented name pos).bind fun function => ?_
      cases hb : takeBlock last after with
      | error e => exact Grows.throw _
      | ok g =>
          refine (ihbody function g hb).bind fun body => ?_
          refine Grows.bind (Grows.modify fun env => ?_) fun _ => ihrest g hb
          exact env.grows_modifyFunction function fun f => rfl
  | case11 scope t ts _ ht ihbody ihrest =>
      rw [block_if ht]
      exact (grows_headed scope t _ ts).bind fun h =>
        (ihbody h.1 h.2).bind fun body => (ihrest h.1 h.2).bind fun rest => Grows.pure _
  | case12 scope t ts _ ht ihbody ihrest =>
      rw [block_while ht]
      exact (grows_headed scope t _ ts).bind fun h =>
        (ihbody h.1 h.2).bind fun body => (ihrest h.1 h.2).bind fun rest => Grows.pure _
  | case13 scope t ts last _ ht e hv =>
      rw [block_for ht, hv]
      exact Grows.throw _
  | case14 scope t ts last _ ht names after hv ihbody ihrest =>
      rw [block_for ht, hv]
      refine (Grows.mapM (grows_resolve scope) names).bind fun vars => ?_
      have hheaded : Grows (do
          let h ← headed scope t last after
          let body ← block scope.inLoop h.1.body
          let rest ← block scope h.1.rest
          return .each scope.nextLabel vars h.1.head body :: rest) :=
        (grows_headed scope t last after).bind fun h =>
          (ihbody h.1 h.2).bind fun body => (ihrest h.1 h.2).bind fun rest => Grows.pure _
      dsimp only
      split
      · exact (grows_failAt _ _).bind fun _ => hheaded
      · exact hheaded
  | case15 scope t ts _ ht ih =>
      rw [block_return ht]
      exact ih.bind fun rest => Grows.pure _
  | case16 scope t ts _ ht ih =>
      rw [block_break ht]
      exact ih.bind fun rest => Grows.pure _
  | case17 scope t ts _ ht ih =>
      rw [block_continue ht]
      exact ih.bind fun rest => Grows.pure _
  | case18 scope t ts last _ ht e hb =>
      rw [block_openBrace ht, hb]
      exact Grows.throw _
  | case19 scope t ts last _ ht g hb ihinner ihrest =>
      rw [block_openBrace ht, hb]
      exact ihinner.bind fun inner => ihrest.bind fun rest => Grows.pure _
  | case20 scope t ts hstart h1 h2 h3 h4 h5 h6 h7 h8 h9 h10 h11 =>
      rw [block_other hstart h1 h2 h3 h4 h5 h6 h7 h8 h9 h10 h11]
      exact grows_failAt _ _

end Parser

end Scriptlet
