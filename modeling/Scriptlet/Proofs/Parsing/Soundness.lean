import Scriptlet.Proofs.Outcome
import Scriptlet.Proofs.Parsing.Forms
import Scriptlet.Proofs.Parsing.Scoping

/-!
# Parsing resolves names soundly

Whatever the tokens are, what parsing makes of them mentions only what is there, and it
fails with errors of the language only. There is one exception, which has a pattern of
its own among the tokens: `RedeclaresInside`, a declaration of a function inside a body
that is given for it. Such a declaration may take parameters away which the body has
used before.

The main statement is `Parser.scoped_block`. Its induction carries the references made
so far (`known`), because what is declared after them must not take away what they
point to.
-/

namespace Scriptlet

/-- Whether a function of the name is declared among the tokens. -/
def Declares (name : String) (ts : List Token) : Prop :=
  ∃ word target, [word, target] <:+: ts ∧ word.lexeme = .keyword .defWord ∧
    target.lexeme = .name name

/-- Whether a function of the name is declared inside of a body that is given for it. -/
def RedeclaresInside (name : String) (ts : List Token) : Prop :=
  ∃ word target opening inner close, (word :: target :: opening :: (inner ++ [close])) <:+: ts ∧
    word.lexeme = .keyword .impWord ∧ target.lexeme = .name name ∧
    opening.lexeme = .openBrace ∧
    Bracket.brace.group? 0 (inner ++ [close]) = some ⟨inner, close, []⟩ ∧ Declares name inner

theorem Declares.of_isInfix {name : String} {ts us : List Token} (h : Declares name ts)
    (hts : ts <:+: us) : Declares name us := by
  obtain ⟨word, target, hmem, hword, htarget⟩ := h
  exact ⟨word, target, hmem.trans hts, hword, htarget⟩

theorem RedeclaresInside.of_isInfix {name : String} {ts us : List Token}
    (h : RedeclaresInside name ts) (hts : ts <:+: us) : RedeclaresInside name us := by
  obtain ⟨word, target, opening, inner, close, hmem, hrest⟩ := h
  exact ⟨word, target, opening, inner, close, hmem.trans hts, hrest⟩

/-- A group is closed by its own tokens, whatever comes after them. -/
theorem Bracket.group?_inner {b : Bracket} {depth : Nat} {ts : List Token} {g : Group}
    (h : b.group? depth ts = some g) :
    b.group? depth (g.inner ++ [g.close]) = some ⟨g.inner, g.close, []⟩ := by
  induction ts generalizing depth g with
  | nil => cases h
  | cons t ts ih =>
      unfold group? at h
      split at h
      · rename_i hopens
        obtain ⟨g', hg, rfl⟩ := Option.map_eq_some_iff.1 h
        simp [Group.cons, group?, hopens, ih hg]
      · rename_i hopens
        split at h
        · rename_i hcloses
          split at h
          · cases h
            simp [group?, hopens, hcloses]
          · obtain ⟨g', hg, rfl⟩ := Option.map_eq_some_iff.1 h
            simp [Group.cons, group?, hopens, hcloses, ih hg]
        · rename_i hcloses
          obtain ⟨g', hg, rfl⟩ := Option.map_eq_some_iff.1 h
          simp [Group.cons, group?, hopens, hcloses, ih hg]

/-- A block in braces, as it stands among the tokens. -/
theorem takeBlock_eq {last : Position} {ts : List Token} {g : Group}
    (h : takeBlock last ts = .ok g) :
    ∃ opening, ts = opening :: (g.inner ++ g.close :: g.rest) ∧ opening.lexeme = .openBrace ∧
      Bracket.brace.group? 0 (g.inner ++ [g.close]) = some ⟨g.inner, g.close, []⟩ := by
  cases ts with
  | nil => cases h
  | cons t ts =>
      simp only [takeBlock] at h
      split at h
      · rename_i hopens
        split at h
        · cases h
        · rename_i g' hg
          cases h
          exact ⟨t, by rw [← Bracket.group?_append hg], Bracket.opens_brace_iff.1 hopens,
            Bracket.group?_inner hg⟩
      · cases h

theorem takeBlock_isInfix {last : Position} {ts : List Token} {g : Group}
    (h : takeBlock last ts = .ok g) : g.inner <:+: ts ∧ g.rest <:+: ts := by
  obtain ⟨opening, rfl, _⟩ := takeBlock_eq h
  refine ⟨⟨[opening], g.close :: g.rest, by simp⟩, ?_⟩
  exact (List.IsSuffix.trans ⟨g.inner ++ [g.close], by simp⟩ (List.suffix_cons _ _)).isInfix

theorem takeExpression_isInfix {after : Token} {ts : List Token} {e : Extent}
    (h : takeExpression after ts = .ok e) : e.rest <:+: ts := by
  obtain ⟨hcut, _⟩ := takeExpression_append h
  exact (List.IsSuffix.isInfix ⟨e.inside, hcut⟩)

/-! ### Tokens of the parts -/

theorem Bracket.group?_subset {b : Bracket} {depth : Nat} {ts : List Token} {g : Group}
    (h : b.group? depth ts = some g) : g.inner ⊆ ts ∧ g.rest ⊆ ts := by
  rw [group?_append h]
  exact ⟨by simp, by simp⟩

theorem takeExpression_subset {after : Token} {ts : List Token} {e : Extent}
    (h : takeExpression after ts = .ok e) : e.inside ⊆ ts ∧ e.rest ⊆ ts := by
  rw [← (takeExpression_append h).1]
  exact ⟨List.subset_append_left _ _, List.subset_append_right _ _⟩

theorem takeBlock_subset {last : Position} {ts : List Token} {g : Group}
    (h : takeBlock last ts = .ok g) : g.inner ⊆ ts ∧ g.rest ⊆ ts :=
  (takeBlock_isInfix h).imp List.IsInfix.subset List.IsInfix.subset

theorem subset_of_mem_splitCommas {depth : Int} {ts part : List Token}
    (h : part ∈ splitCommas depth ts) : part ⊆ ts := by
  induction ts generalizing depth part with
  | nil => simp_all [splitCommas]
  | cons t ts ih =>
      unfold splitCommas at h
      split at h
      · rcases List.mem_cons.1 h with rfl | hmem
        · exact List.nil_subset _
        · exact List.subset_cons_of_subset t (ih hmem)
      · cases hparts : splitCommas (t.lexeme.depthAfter depth) ts with
        | nil => exact absurd hparts (splitCommas_ne_nil _ ts)
        | cons first parts =>
            rw [hparts, consPart] at h
            rcases List.mem_cons.1 h with rfl | hmem
            · exact List.cons_subset_cons t (ih (hparts ▸ List.mem_cons_self))
            · exact List.subset_cons_of_subset t (ih (hparts ▸ List.mem_cons_of_mem _ hmem))

namespace Parser

theorem expectName_eq {after : Token} {ts rest : List Token} {name : String} {pos : Position}
    (h : expectName after ts = .ok (name, pos, rest)) :
    ∃ target, ts = target :: rest ∧ target.lexeme = .name name := by
  cases ts with
  | nil => cases h
  | cons t ts =>
      simp only [expectName] at h
      split at h
      · rename_i word hword
        cases h
        exact ⟨t, rfl, hword⟩
      · cases h

theorem parameters_suffix {function : String} {last : Position} {byRef : Bool}
    {ts rest : List Token} {params : List Param}
    (h : parameters function last byRef ts = .ok (params, rest)) : rest <:+ ts := by
  induction ts generalizing byRef params with
  | nil => cases h
  | cons t ts ih =>
      unfold parameters at h
      split at h
      · cases h
        exact List.suffix_cons _ _
      · exact (ih h).trans (List.suffix_cons _ _)
      · exact (ih h).trans (List.suffix_cons _ _)
      · obtain ⟨⟨params', rest'⟩, hp, heq⟩ := Extent.map_eq_ok h
        cases heq
        exact (ih hp).trans (List.suffix_cons _ _)
      · cases h

theorem loopVariables_suffix {last : Position} {ts rest : List Token} {names : List String}
    (h : loopVariables last ts = .ok (names, rest)) : rest <:+ ts := by
  induction ts generalizing names with
  | nil => cases h
  | cons t ts ih =>
      unfold loopVariables at h
      split at h
      · cases h
        exact List.suffix_cons _ _
      · exact (ih h).trans (List.suffix_cons _ _)
      · obtain ⟨⟨names', rest'⟩, hn, heq⟩ := Extent.map_eq_ok h
        cases heq
        exact (ih hn).trans (List.suffix_cons _ _)
      · cases h

/-! ### What a parser makes -/

/-- Where and under which agreements code is parsed. -/
structure Setting where
  /-- The functions that the host may provide. -/
  natives : Native → Prop
  /-- The functions that are loose in bodies that are complete. -/
  bodies : String → Prop
  /-- The functions that are loose in the code that is being parsed. -/
  loose : String → Prop
  /-- The function in whose body the code stands. -/
  function? : Option Nat

variable {α β : Type} {c : Setting} {known : List Reference} {made : α → List Reference}
  {made' : β → List Reference}

/-- Whether a parser keeps the environment sound, and makes only what the environment
admits afterwards, when it admits `known` before. It may fail with errors of the language
only. -/
def Scoped (c : Setting) (known : List Reference) (made : α → List Reference)
    (p : Parser α) : Prop :=
  ∀ env, env.Sound c.natives c.bodies → (∀ r ∈ known, env.Admits c.loose c.function? r) →
    After p env
      (fun a env' => env'.Sound c.natives c.bodies ∧ env.Extends c.loose env' ∧
        ∀ r ∈ made a, env'.Admits c.loose c.function? r)
      fun e _ => ∃ error, e = .error error

theorem Scoped.pure {a : α} (h : ∀ r ∈ made a, r ∈ known) : Scoped c known made (pure a) :=
  fun env hsound hknown =>
    ⟨hsound, Environment.Extends.refl c.loose env, fun r hr => hknown r (h r hr)⟩

theorem Scoped.throw (e : Error) : Scoped c known made (throw (.error e)) :=
  fun _ _ _ => ⟨e, rfl⟩

theorem Scoped.bind {p : Parser α} {f : α → Parser β} (hp : Scoped c known made p)
    (hf : ∀ a, Scoped c (made a ++ known) made' (f a)) : Scoped c known made' (p >>= f) := by
  intro env hsound hknown
  rw [after_bind]
  refine (hp env hsound hknown).mono ?_ fun _ _ he => he
  rintro a env' ⟨hsound', hextends, hmade⟩
  have hknown' : ∀ r ∈ made a ++ known, env'.Admits c.loose c.function? r := by
    intro r hr
    rcases List.mem_append.1 hr with hr | hr
    · exact hmade r hr
    · exact (hknown r hr).extends hextends
  refine (hf a env' hsound' hknown').mono ?_ fun _ _ he => he
  rintro b env'' ⟨hsound'', hextends', hmade'⟩
  exact ⟨hsound'', hextends.trans hextends', hmade'⟩

theorem Scoped.map {p : Parser α} (f : α → β) (hp : Scoped c known (fun a => made' (f a)) p) :
    Scoped c known made' (f <$> p) := by
  intro env hsound hknown
  rw [after_map]
  exact hp env hsound hknown

theorem scoped_resolve {scope : Scope} (hscope : c.function? = scope.function?) (name : String) :
    Scoped c known (fun slot => [.cell slot]) (resolve scope name) := by
  intro env hsound _
  have hfunctions := env.functions_resolve scope.function? name
  have hglobals := env.globals_le_resolve scope.function? name
  refine ⟨hsound.of_functions_eq hfunctions hglobals,
    Environment.extends_of_functions_eq c.loose hfunctions hglobals, ?_⟩
  intro r hr
  rw [List.mem_singleton.1 hr, hscope]
  exact env.admits_resolve c.loose scope.function? name

theorem scoped_callee (name : String) (pos : Position) :
    Scoped c known (fun k => [.function k]) (callee name pos) := by
  intro env hsound _
  rw [callee, after_bind, after_get]
  cases hk : env.functionIndex? name with
  | none => exact ⟨_, rfl⟩
  | some k =>
      refine ⟨hsound, Environment.Extends.refl c.loose env, ?_⟩
      intro r hr
      rw [List.mem_singleton.1 hr]
      obtain ⟨f, hf, _⟩ := Environment.exists_of_functionIndex? hk
      exact (List.getElem?_eq_some_iff.1 hf).1

theorem scoped_mapM_resolve {scope : Scope} (hscope : c.function? = scope.function?)
    (names : List String) (known : List Reference) :
    Scoped c known (fun slots => slots.map .cell) (names.mapM (resolve scope)) := by
  induction names generalizing known with
  | nil => exact Scoped.pure (List.forall_mem_nil _)
  | cons name names ih =>
      rw [List.mapM_cons]
      refine (scoped_resolve hscope name).bind fun slot => ?_
      refine (ih _).bind fun slots => Scoped.pure ?_
      intro r hr
      rcases List.mem_cons.1 hr with rfl | hr
      · simp
      · simp only [List.mem_append, hr, true_or]

theorem scoped_simpleArgument {scope : Scope} (hscope : c.function? = scope.function?)
    {part : List Token} {simple : Parser Argument} (h : simpleArgument scope part = some simple) :
    Scoped c known (fun arg => argumentReferences [arg]) simple := by
  unfold simpleArgument at h
  split at h
  · cases h
    exact Scoped.map _ (scoped_resolve hscope _)
  · obtain ⟨v, _, rfl⟩ := Option.map_eq_some_iff.1 h
    exact Scoped.pure (List.forall_mem_nil _)
  · cases h

theorem argumentReferences_cons (arg : Argument) (args : List Argument) :
    argumentReferences (arg :: args) = argumentReferences [arg] ++ argumentReferences args := by
  cases arg <;> simp [argumentReferences]

/-- Terms, elements and arguments are scoped, whatever the tokens are. -/
theorem scoped_terms_elements_arguments (c : Setting) {scope : Scope}
    (hscope : c.function? = scope.function?) :
    (∀ operand ts, ∀ known, Scoped c known termReferences (terms scope operand ts)) ∧
      (∀ parts, ∀ known, Scoped c known itemReferences (elements scope parts)) ∧
      ∀ parts, ∀ known, Scoped c known argumentReferences (arguments scope parts) := by
  apply terms.mutual_induct scope
    (fun operand ts => ∀ known, Scoped c known termReferences (terms scope operand ts))
    (fun parts => ∀ known, Scoped c known itemReferences (elements scope parts))
    (fun parts => ∀ known, Scoped c known argumentReferences (arguments scope parts))
  case case1 =>
    intro operand known
    rw [terms_nil]
    exact Scoped.pure (List.forall_mem_nil _)
  case case2 =>
    intro operand t ts v hv ih known
    rw [terms_literal hv]
    exact (ih _).bind fun rest => Scoped.pure fun r hr => List.mem_append_left _ hr
  case case3 =>
    intro operand t ts _ o ho v rest hs ih known
    rw [terms_op ho, hs]
    exact (ih _).bind fun rest => Scoped.pure fun r hr => List.mem_append_left _ hr
  case case4 =>
    intro operand t ts _ o ho hs ih known
    rw [terms_op ho, hs]
    exact (ih _).bind fun rest => Scoped.pure fun r hr => List.mem_append_left _ hr
  case case5 =>
    intro operand t ts _ word hw paren after hp ihargs ihrest known
    rw [terms_name hw, hp]
    refine (scoped_callee word t.pos).bind fun function => ?_
    cases hg : Bracket.paren.group? 0 after with
    | none => exact Scoped.throw _
    | some g =>
        refine (ihargs g hg _).bind fun args => (ihrest g hg _).bind fun rest => Scoped.pure ?_
        intro r hr
        rw [termReferences] at hr
        simp only [List.mem_append, List.mem_cons] at hr ⊢
        rcases hr with rfl | hr | hr
        · simp
        · simp [hr]
        · simp [hr]
  case case6 =>
    intro operand t ts _ word hw hp ih known
    rw [terms_name hw, hp]
    refine (scoped_resolve hscope word).bind fun slot => (ih _).bind fun rest => Scoped.pure ?_
    intro r hr
    rw [termReferences] at hr
    rcases List.mem_cons.1 hr with rfl | hr
    · simp
    · simp [hr]
  case case7 =>
    intro t ts _ hb hg known
    rw [terms_openBrace hb, hg]
    exact Scoped.throw _
  case case8 =>
    intro t ts _ hb g hg ihitems ihrest known
    rw [terms_openBrace hb, hg]
    refine (ihitems _).bind fun items => (ihrest _).bind fun rest => Scoped.pure ?_
    intro r hr
    rw [termReferences] at hr
    rcases List.mem_append.1 hr with hr | hr
    · simp [hr]
    · simp [hr]
  case case9 =>
    intro operand t ts _ hb hoperand known
    rw [terms_openBrace hb, if_neg hoperand]
    exact Scoped.throw _
  case case10 =>
    intro operand t ts _ hp ih known
    rw [terms_openParen hp]
    exact (ih _).bind fun rest => Scoped.pure fun r hr => List.mem_append_left _ hr
  case case11 =>
    intro operand t ts _ hp ih known
    rw [terms_closeParen hp]
    exact (ih _).bind fun rest => Scoped.pure fun r hr => List.mem_append_left _ hr
  case case12 =>
    intro operand t ts hliteral hop hname hbrace hopen hclose known
    rw [terms_other hliteral hop hname hbrace hopen hclose]
    exact Scoped.throw _
  case case13 =>
    intro known
    rw [elements_nil]
    exact Scoped.pure (List.forall_mem_nil _)
  case case14 =>
    intro parts ih known
    rw [elements_skip]
    exact ih known
  case case15 =>
    intro t ts parts ihitem ihrest known
    rw [elements_cons]
    refine (ihitem _).bind fun item => (ihrest _).bind fun rest => Scoped.pure ?_
    intro r hr
    rw [itemReferences, Expr.references] at hr
    rcases List.mem_append.1 hr with hr | hr
    · simp [hr]
    · simp [hr]
  case case16 =>
    intro known
    rw [arguments_nil]
    exact Scoped.pure (List.forall_mem_nil _)
  case case17 =>
    intro parts ih known
    rw [arguments_skip]
    exact ih known
  case case18 =>
    intro t ts parts simple hsimple ih known
    rw [arguments_simple parts hsimple]
    refine (scoped_simpleArgument hscope hsimple).bind fun arg => (ih _).bind fun rest => ?_
    refine Scoped.pure fun r hr => ?_
    rw [argumentReferences_cons] at hr
    rcases List.mem_append.1 hr with hr | hr
    · simp [hr]
    · simp [hr]
  case case19 =>
    intro t ts parts hsimple ih ihterms known
    rw [arguments_expr parts hsimple]
    have hrefs : (fun made => argumentReferences [.expr (.mk made t.pos)]) = termReferences := by
      funext made
      simp [argumentReferences, Expr.references]
    have hterms : Scoped c known (fun arg => argumentReferences [arg])
        ((fun made => Argument.expr (.mk made t.pos)) <$> terms scope true (t :: ts)) := by
      refine Scoped.map _ ?_
      rw [hrefs]
      exact ihterms known
    refine hterms.bind fun arg => (ih _).bind fun rest => Scoped.pure fun r hr => ?_
    rw [argumentReferences_cons] at hr
    rcases List.mem_append.1 hr with hr | hr
    · simp [hr]
    · simp [hr]

theorem scoped_expression (c : Setting) {scope : Scope} (hscope : c.function? = scope.function?)
    {ts : List Token} (hts : ts ≠ []) (known : List Reference) :
    Scoped c known Expr.references (expression scope ts) := by
  cases ts with
  | nil => exact absurd rfl hts
  | cons t ts =>
      refine ((scoped_terms_elements_arguments c hscope).1 true (t :: ts) known).bind ?_
      intro made
      exact Scoped.pure fun r hr => List.mem_append_left _ hr

/-- What follows on the head of a statement may use that the block and the rest stand among
the tokens. -/
theorem Scoped.headed_bind {scope : Scope} (hscope : c.function? = scope.function?)
    {after : Token} {last : Position} {ts : List Token}
    {f : { h : Headed // h.body.length < ts.length ∧ h.rest.length < ts.length } → Parser β}
    (hf : ∀ h, h.1.body <:+: ts → h.1.rest <:+: ts →
      Scoped c (h.1.head.references ++ known) made' (f h)) :
    Scoped c known made' (headed scope after last ts >>= f) := by
  unfold headed
  split
  · exact Scoped.throw _
  · rename_i x hx
    have hinside := (takeExpression_append hx).2
    have hrest := takeExpression_isInfix hx
    rw [bind_assoc]
    refine (scoped_expression c hscope hinside known).bind fun head => ?_
    split
    · exact Scoped.throw _
    · rename_i g hg
      rw [pure_bind]
      have hblock := takeBlock_isInfix hg
      exact hf ⟨⟨head, g.inner, g.rest⟩, _⟩ (hblock.1.trans hrest) (hblock.2.trans hrest)

/-- A statement with a head and a body, followed by the rest of the block. `before` is what
the statement mentions besides. -/
theorem Scoped.headed_stmt (before : List Reference) {scope : Scope}
    (hscope : c.function? = scope.function?) {after : Token} {last : Position} {ts : List Token}
    {make : Expr → List Stmt → Stmt} {body rest : Headed → Parser (List Stmt)}
    (hmake : ∀ head stmts,
      (make head stmts).references = before ++ (head.references ++ blockReferences stmts))
    (hbefore : ∀ r ∈ before, r ∈ known)
    (hbody : ∀ h : Headed, h.body.length < ts.length ∧ h.rest.length < ts.length →
      h.body <:+: ts → ∀ known, Scoped c known blockReferences (body h))
    (hrest : ∀ h : Headed, h.body.length < ts.length ∧ h.rest.length < ts.length →
      h.rest <:+: ts → ∀ known, Scoped c known blockReferences (rest h)) :
    Scoped c known blockReferences (do
      let h ← headed scope after last ts
      let stmts ← body h.1
      let stmts' ← rest h.1
      return make h.1.head stmts :: stmts') := by
  refine Scoped.headed_bind hscope fun h hbody' hrest' => ?_
  refine (hbody h.1 h.2 hbody' _).bind fun stmts => (hrest h.1 h.2 hrest' _).bind fun stmts' => ?_
  refine Scoped.pure fun r hr => ?_
  rw [blockReferences, hmake] at hr
  simp only [List.mem_append] at hr ⊢
  rcases hr with (hr | hr | hr) | hr
  · simp only [hbefore r hr, or_true]
  · simp only [hr, true_or, or_true]
  · simp only [hr, true_or, or_true]
  · exact .inl hr

/-! ### Declarations and bodies -/

/-- Whether the agreements allow for what is declared among the tokens. -/
structure Setting.Covers (c : Setting) (ts : List Token) : Prop where
  loose : ∀ name, Declares name ts → c.loose name
  bodies : ∀ name, RedeclaresInside name ts → c.bodies name

theorem Setting.Covers.of_isInfix {ts us : List Token} (h : c.Covers us) (hts : ts <:+: us) :
    c.Covers ts :=
  ⟨fun name hname => h.loose name (hname.of_isInfix hts),
    fun name hname => h.bodies name (hname.of_isInfix hts)⟩

/-- A declaration may take parameters away from a function of the host, so its name must be
among the loose ones. -/
theorem scoped_define {name : String} (hname : c.loose name) (pos : Position)
    (params : List Param) : Scoped c known (fun _ => []) (define name pos params) := by
  intro env hsound _
  rw [define, after_bind, after_get]
  unfold Environment.define Environment.function?
  cases hk : env.functionIndex? name with
  | none =>
      refine ⟨hsound.addFunction ?_, env.extends_addFunction c.loose _, List.forall_mem_nil _⟩
      exact List.forall_mem_nil _
  | some k =>
      obtain ⟨f, hf, rfl⟩ := Environment.exists_of_functionIndex? hk
      dsimp only [Option.bind_some]
      rw [hf]
      dsimp only [Option.map_some]
      split
      · rename_i env' heq
        split at heq
        · rename_i hnative
          cases heq
          refine ⟨hsound.modifyFunction ?_, Environment.extends_modifyFunction ?_,
            List.forall_mem_nil _⟩
          · intro g hg
            rw [hf] at hg
            cases hg
            have hfits := hsound k f hf
            unfold Function.isNative at hnative
            cases hbody : f.body with
            | script stmts => simp [hbody] at hnative
            | native run =>
                rw [hbody] at hfits
                exact .inr hfits
          · intro g hg
            rw [hf] at hg
            cases hg
            exact .inr hname
        · cases heq
      · exact ⟨_, rfl⟩

/-- A body is given to a function. Code around it goes on as before, and the body itself is
fit for the function, unless it takes parameters away that it has used. -/
theorem scoped_imp {word target opening : Token} {name : String} {g : Group} {k : Nat}
    (hword : word.lexeme = .keyword .impWord) (htarget : target.lexeme = .name name)
    (hopening : opening.lexeme = .openBrace)
    (hgroup : Bracket.brace.group? 0 (g.inner ++ [g.close]) = some ⟨g.inner, g.close, []⟩)
    (hcovers : c.Covers (word :: target :: opening :: (g.inner ++ g.close :: g.rest)))
    {body : Parser (List Stmt)}
    (hbody : Scoped ⟨c.natives, c.bodies, (Declares · g.inner), some k⟩ [] blockReferences body)
    {env : Environment} (hk : env.functionIndex? name = some k)
    (hsound : env.Sound c.natives c.bodies) :
    After (body >>= fun stmts => modify (·.modifyFunction k ({ · with body := .script stmts })))
      env (fun _ env' => env'.Sound c.natives c.bodies ∧ env.Extends c.loose env')
      fun e _ => ∃ error, e = .error error := by
  have hinner : g.inner <:+: word :: target :: opening :: (g.inner ++ g.close :: g.rest) :=
    ⟨[word, target, opening], g.close :: g.rest, by simp⟩
  obtain ⟨f, hf, hname⟩ := Environment.exists_of_functionIndex? hk
  rw [after_bind]
  refine (hbody env hsound (List.forall_mem_nil _)).mono ?_ fun _ _ he => he
  rintro stmts env' ⟨hsound', hextends, hmade⟩
  obtain ⟨f', hf', hname', _⟩ := hextends.functions hf
  have hloose : env.Extends c.loose env' :=
    hextends.mono fun name hdeclares => hcovers.loose name (hdeclares.of_isInfix hinner)
  have hchange : env'.Extends c.loose
      (env'.modifyFunction k ({ · with body := .script stmts })) :=
    Environment.extends_modifyFunction fun _ _ => .inl (Nat.le_refl _)
  refine ⟨hsound'.modifyFunction ?_, hloose.trans hchange⟩
  intro f'' hf''
  refine .inr ?_
  intro r hr
  refine ((hmade r hr).mono ?_).extends ?_
  · -- The body is loose only by a declaration of its own function in it.
    intro k' f₀ hk' hf₀ hdeclares
    cases hk'
    rw [hf'] at hf₀
    cases hf₀
    rw [hname', hname] at hdeclares ⊢
    refine hcovers.bodies name ⟨word, target, opening, g.inner, g.close, ?_, hword, htarget,
      hopening, hgroup, hdeclares⟩
    exact ⟨[], g.rest, by simp⟩
  · exact Environment.extends_modifyFunction fun _ _ => .inl (Nat.le_refl _)

theorem blockReferences_append (stmts stmts' : List Stmt) :
    blockReferences (stmts ++ stmts') = blockReferences stmts ++ blockReferences stmts' := by
  induction stmts with
  | nil => rfl
  | cons stmt stmts ih =>
      rw [List.cons_append, blockReferences, blockReferences, ih, List.append_assoc]

/-- Statements are scoped, whatever the tokens are. -/
theorem scoped_block (natives : Native → Prop) (scope : Scope) (ts : List Token) :
    ∀ (bodies loose : String → Prop) (known : List Reference),
      Setting.Covers ⟨natives, bodies, loose, scope.function?⟩ ts →
        Scoped ⟨natives, bodies, loose, scope.function?⟩ known blockReferences
          (block scope ts) := by
  induction scope, ts using block.induct with
  | case1 scope =>
      intro bodies loose known _
      rw [block_nil]
      exact Scoped.pure (List.forall_mem_nil _)
  | case2 scope t ts hs e hx =>
      intro bodies loose known _
      rw [block_expression hs, hx]
      exact Scoped.throw _
  | case3 scope t ts hs x hx ih =>
      intro bodies loose known hcovers
      rw [block_expression hs, hx]
      have hrest := hcovers.of_isInfix (takeExpression_isInfix hx)
      refine (scoped_expression _ rfl (takeExpression_append hx).2 _).bind fun e => ?_
      refine (ih bodies loose _ hrest).bind fun rest => Scoped.pure fun r hr => ?_
      rw [blockReferences, Stmt.references] at hr
      rcases List.mem_append.1 hr with hr | hr
      · simp [hr]
      · simp [hr]
  | case4 scope t ts _ ht ih =>
      intro bodies loose known hcovers
      rw [block_semicolon ht]
      exact ih bodies loose known (hcovers.of_isInfix (List.suffix_cons t ts).isInfix)
  | case5 scope t ts _ ht ih =>
      intro bodies loose known hcovers
      rw [block_comma ht]
      exact ih bodies loose known (hcovers.of_isInfix (List.suffix_cons t ts).isInfix)
  | case6 scope t ts _ ht e hn =>
      intro bodies loose known _
      rw [block_def ht, hn]
      exact Scoped.throw _
  | case7 scope t ts last _ ht name pos after hn e hp =>
      intro bodies loose known _
      rw [block_def ht, hn]
      dsimp only
      rw [hp]
      exact Scoped.throw _
  | case8 scope t ts last _ ht name pos after hn params rest hp ih =>
      intro bodies loose known hcovers
      rw [block_def ht, hn]
      dsimp only
      rw [hp]
      obtain ⟨target, rfl, htarget⟩ := expectName_eq hn
      have hname : loose name := hcovers.loose name ⟨t, target, ⟨[], after, by simp⟩, ht, htarget⟩
      refine (scoped_define hname pos params).bind fun _ => ?_
      refine ih bodies loose _ (hcovers.of_isInfix ?_)
      have hafter : after <:+ t :: target :: after := ⟨[t, target], rfl⟩
      exact ((parameters_suffix hp).trans hafter).isInfix
  | case9 scope t ts _ ht e hn =>
      intro bodies loose known _
      rw [block_imp ht, hn]
      exact Scoped.throw _
  | case10 scope t ts last _ ht name pos after hn ihbody ihrest =>
      intro bodies loose known hcovers
      rw [block_imp ht, hn]
      obtain ⟨target, rfl, htarget⟩ := expectName_eq hn
      intro env hsound hknown
      dsimp only
      rw [implemented, after_bind, after_bind, after_get]
      cases hk : env.functionIndex? name with
      | none => exact ⟨_, rfl⟩
      | some k =>
          dsimp only
          rw [after_pure]
          cases hb : takeBlock last after with
          | error e => exact ⟨_, rfl⟩
          | ok g =>
              obtain ⟨opening, rfl, hopening, hgroup⟩ := takeBlock_eq hb
              have hinner : g.inner <:+: t :: target :: opening :: (g.inner ++ g.close :: g.rest) :=
                ⟨[t, target, opening], g.close :: g.rest, by simp⟩
              have hrest : g.rest <:+: t :: target :: opening :: (g.inner ++ g.close :: g.rest) :=
                ⟨t :: target :: opening :: (g.inner ++ [g.close]), [], by simp⟩
              have hbody := ihbody k g hb bodies (Declares · g.inner) []
                ⟨fun _ h => h, fun name h => hcovers.bodies name (h.of_isInfix hinner)⟩
              have himp := scoped_imp ht htarget hopening hgroup hcovers hbody hk hsound
              dsimp only
              rw [← bind_assoc, after_bind]
              refine himp.mono ?_ fun _ _ he => he
              rintro _ env' ⟨hsound', hextends⟩
              have hknown' := fun r hr => (hknown r hr).extends hextends
              refine (ihrest g hb bodies loose known (hcovers.of_isInfix hrest) env' hsound'
                hknown').mono ?_ fun _ _ he => he
              rintro stmts env'' ⟨hsound'', hextends', hmade⟩
              exact ⟨hsound'', hextends.trans hextends', hmade⟩
  | case11 scope t ts _ ht ihbody ihrest =>
      intro bodies loose known hcovers
      rw [block_if ht]
      have hts := hcovers.of_isInfix (List.suffix_cons t ts).isInfix
      refine Scoped.headed_stmt [] rfl (fun head stmts => ?_) (List.forall_mem_nil _)
        (fun h hlt hbody known' => ihbody h hlt bodies loose known' (hts.of_isInfix hbody))
        fun h hlt hrest known' => ihrest h hlt bodies loose known' (hts.of_isInfix hrest)
      rw [Stmt.references, List.nil_append]
  | case12 scope t ts _ ht ihbody ihrest =>
      intro bodies loose known hcovers
      rw [block_while ht]
      have hts := hcovers.of_isInfix (List.suffix_cons t ts).isInfix
      refine Scoped.headed_stmt [] rfl (fun head stmts => ?_) (List.forall_mem_nil _)
        (fun h hlt hbody known' => ihbody h hlt bodies loose known' (hts.of_isInfix hbody))
        fun h hlt hrest known' => ihrest h hlt bodies loose known' (hts.of_isInfix hrest)
      rw [Stmt.references, List.nil_append]
  | case13 scope t ts last _ ht e hv =>
      intro bodies loose known _
      rw [block_for ht, hv]
      exact Scoped.throw _
  | case14 scope t ts last _ ht names after hv ihbody ihrest =>
      intro bodies loose known hcovers
      rw [block_for ht, hv]
      have hafter : after <:+: t :: ts :=
        ((loopVariables_suffix hv).trans (List.suffix_cons t ts)).isInfix
      have hts := hcovers.of_isInfix hafter
      refine (scoped_mapM_resolve rfl names known).bind fun vars => ?_
      have hheaded : Scoped ⟨natives, bodies, loose, scope.function?⟩ (vars.map .cell ++ known)
          blockReferences (do
            let h ← headed scope t last after
            let body ← block scope.inLoop h.1.body
            let rest ← block scope h.1.rest
            return .each scope.nextLabel vars h.1.head body :: rest) := by
        refine Scoped.headed_stmt (vars.map .cell) rfl (fun head stmts => ?_)
          (fun r hr => List.mem_append_left _ hr)
          (fun h hlt hbody known' => ihbody h hlt bodies loose known' (hts.of_isInfix hbody))
          fun h hlt hrest known' => ihrest h hlt bodies loose known' (hts.of_isInfix hrest)
        rw [Stmt.references]
      dsimp only
      split
      · intro env _ _
        exact ⟨_, rfl⟩
      · exact hheaded
  | case15 scope t ts _ ht ih =>
      intro bodies loose known hcovers
      rw [block_return ht]
      refine (ih bodies loose known (hcovers.of_isInfix (List.suffix_cons t ts).isInfix)).bind ?_
      exact fun rest => Scoped.pure fun r hr => List.mem_append_left _ hr
  | case16 scope t ts _ ht ih =>
      intro bodies loose known hcovers
      rw [block_break ht]
      refine (ih bodies loose known (hcovers.of_isInfix (List.suffix_cons t ts).isInfix)).bind ?_
      exact fun rest => Scoped.pure fun r hr => List.mem_append_left _ hr
  | case17 scope t ts _ ht ih =>
      intro bodies loose known hcovers
      rw [block_continue ht]
      refine (ih bodies loose known (hcovers.of_isInfix (List.suffix_cons t ts).isInfix)).bind ?_
      exact fun rest => Scoped.pure fun r hr => List.mem_append_left _ hr
  | case18 scope t ts last _ ht e hb =>
      intro bodies loose known _
      rw [block_openBrace ht, hb]
      exact Scoped.throw _
  | case19 scope t ts last _ ht g hb ihinner ihrest =>
      intro bodies loose known hcovers
      rw [block_openBrace ht, hb]
      obtain ⟨hinner, hrest⟩ := takeBlock_isInfix hb
      refine (ihinner bodies loose known (hcovers.of_isInfix hinner)).bind fun stmts => ?_
      refine (ihrest bodies loose _ (hcovers.of_isInfix hrest)).bind fun rest => ?_
      refine Scoped.pure fun r hr => ?_
      rw [blockReferences_append] at hr
      rcases List.mem_append.1 hr with hr | hr
      · simp [hr]
      · simp [hr]
  | case20 scope t ts hstart h1 h2 h3 h4 h5 h6 h7 h8 h9 h10 h11 =>
      intro bodies loose known _
      rw [block_other hstart h1 h2 h3 h4 h5 h6 h7 h8 h9 h10 h11]
      exact Scoped.throw _

end Parser

end Scriptlet
