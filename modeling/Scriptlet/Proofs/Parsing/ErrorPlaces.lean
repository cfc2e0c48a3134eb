import Scriptlet.Proofs.Parsing.Refusal

/-!
# Where parsing fails

Every error of parsing names the place of a token. Most name the token that was met, and some
the token before it or the last one, because there is none left. The tokens shrink with the
recursion into blocks, arguments and array literals, so what has to be kept is that some token is
always at hand.

`TokensIn places ts` says that the tokens `ts` stand at given places, and `Parser.FailsIn` that a
parser fails only by an error at one of them. The main statement is `Parser.failsIn_block`.
-/

namespace Scriptlet

variable {places : Position → Prop} {ts us : List Token}

/-- Whether all tokens stand at the given places. -/
def TokensIn (places : Position → Prop) (ts : List Token) : Prop :=
  ∀ t ∈ ts, places t.pos

namespace TokensIn

theorem of_subset (h : TokensIn places ts) (hsub : us ⊆ ts) : TokensIn places us :=
  fun t ht => h t (hsub ht)

theorem head {t : Token} (h : TokensIn places (t :: ts)) : places t.pos :=
  h t List.mem_cons_self

theorem tail {t : Token} (h : TokensIn places (t :: ts)) : TokensIn places ts :=
  h.of_subset (List.subset_cons_self t ts)

/-- The last token, which is the first one when there are no others. -/
theorem last {t : Token} (h : TokensIn places (t :: ts)) : places (ts.getLastD t).pos :=
  h _ List.getLastD_mem_cons

theorem group {b : Bracket} {depth : Nat} {g : Group} (h : TokensIn places ts)
    (hg : b.group? depth ts = some g) : TokensIn places g.inner ∧ TokensIn places g.rest :=
  (Bracket.group?_subset hg).imp h.of_subset h.of_subset

theorem parts (h : TokensIn places ts) (depth : Int) :
    ∀ part ∈ splitCommas depth ts, TokensIn places part :=
  fun _ hpart => h.of_subset (subset_of_mem_splitCommas hpart)

theorem expression {after : Token} {x : Extent} (h : TokensIn places ts)
    (hx : takeExpression after ts = .ok x) :
    TokensIn places x.inside ∧ TokensIn places x.rest :=
  (takeExpression_subset hx).imp h.of_subset h.of_subset

theorem block {last : Position} {g : Group} (h : TokensIn places ts)
    (hg : takeBlock last ts = .ok g) : TokensIn places g.inner ∧ TokensIn places g.rest :=
  (takeBlock_subset hg).imp h.of_subset h.of_subset

theorem name {after : Token} {word : String} {pos : Position} (h : TokensIn places ts)
    (hn : Parser.expectName after ts = .ok (word, pos, us)) :
    places pos ∧ TokensIn places us := by
  unfold Parser.expectName at hn
  split at hn
  · cases hn
  · split at hn
    · cases hn
      exact ⟨h.head, h.tail⟩
    · cases hn

end TokensIn

/-! ### Errors of the cuts -/

/-- Whether an error was not made by reading characters and has one of the places. -/
def Error.FoundIn (places : Position → Prop) (e : Error) : Prop :=
  e.cause.kind ≠ .lex ∧ ∃ p, e.pos? = some p ∧ places p

theorem foundIn_located {cause : Cause} {p : Position} (hcause : (cause.kind == .lex) = false)
    (hp : places p) : (cause.located p).FoundIn places :=
  ⟨ne_of_beq_false hcause, p, rfl, hp⟩

theorem Extent.find_foundIn {operand : Bool} {e : Error} (h : find operand ts = .error e)
    (hts : TokensIn places ts) : e.FoundIn places := by
  fun_induction find operand ts with
  | case1 => cases h
  | case2 => cases h
  | case3 => cases h
  | case4 operand t ts hends hopens hoperand hg =>
      cases h
      exact foundIn_located rfl hts.head
  | case5 operand t ts hends hopens hoperand g hg ih =>
      exact ih (map_eq_error h) (hts.tail.group hg).2
  | case6 operand t ts hends hopens paren after hp hg =>
      cases h
      rw [callParen?_eq hp] at hts
      exact foundIn_located rfl hts.tail.head
  | case7 operand t ts hends hopens paren after hp g hg ih =>
      rw [callParen?_eq hp] at hts
      exact ih (map_eq_error h) (hts.tail.tail.group hg).2
  | case8 operand t ts hends hopens hp ih => exact ih (map_eq_error h) hts.tail

theorem takeExpression_foundIn {after : Token} {e : Error}
    (h : takeExpression after ts = .error e) (hafter : places after.pos)
    (hts : TokensIn places ts) : e.FoundIn places := by
  unfold takeExpression at h
  split at h
  · rename_i hfind
    cases h
    exact Extent.find_foundIn hfind hts
  · rename_i x hfind
    have happend := Extent.append_find true ts x hfind
    split at h
    · cases h
      refine foundIn_located rfl ?_
      cases ts with
      | nil => exact hafter
      | cons t ts => exact hts.head
    · split at h
      · cases h
      · rename_i t rest hrest
        split at h
        · cases h
          refine foundIn_located rfl (hts t ?_)
          rw [← happend, hrest]
          simp
        · cases h

theorem takeBlock_foundIn {last : Position} {e : Error} (h : takeBlock last ts = .error e)
    (hlast : places last) (hts : TokensIn places ts) : e.FoundIn places := by
  unfold takeBlock at h
  split at h
  · cases h
    exact foundIn_located rfl hlast
  · split at h
    · split at h
      · cases h
        exact foundIn_located rfl hts.head
      · cases h
    · cases h
      exact foundIn_located rfl hts.head

namespace Parser

theorem expectName_foundIn {after : Token} {e : Error} (h : expectName after ts = .error e)
    (hafter : places after.pos) (hts : TokensIn places ts) : e.FoundIn places := by
  unfold expectName at h
  split at h
  · cases h
    exact foundIn_located rfl hafter
  · split at h
    · cases h
    · cases h
      exact foundIn_located rfl hts.head

theorem parameters_foundIn {function : String} {last : Position} {byRef : Bool} {e : Error}
    (h : parameters function last byRef ts = .error e) (hlast : places last)
    (hts : TokensIn places ts) : e.FoundIn places := by
  induction ts generalizing byRef with
  | nil =>
      cases h
      exact foundIn_located rfl hlast
  | cons t ts ih =>
      unfold parameters at h
      split at h
      · cases h
      · exact ih h hts.tail
      · exact ih h hts.tail
      · exact ih (Extent.map_eq_error h) hts.tail
      · cases h
        exact foundIn_located rfl hts.head

theorem loopVariables_foundIn {last : Position} {e : Error}
    (h : loopVariables last ts = .error e) (hlast : places last) (hts : TokensIn places ts) :
    e.FoundIn places := by
  induction ts with
  | nil =>
      cases h
      exact foundIn_located rfl hlast
  | cons t ts ih =>
      unfold loopVariables at h
      split at h
      · cases h
      · exact ih h hts.tail
      · exact ih (Extent.map_eq_error h) hts.tail
      · cases h
        exact foundIn_located rfl hts.head

/-! ### Errors of parsers -/

variable {α β : Type} {scope : Scope}

/-- Whether a parser fails only by errors at the given places. -/
def FailsIn (places : Position → Prop) (p : Parser α) : Prop :=
  ∀ env, After p env (fun _ _ => True) fun e _ => ∃ error, e = .error error ∧ error.FoundIn places

namespace FailsIn

theorem pure (a : α) : FailsIn places (pure a) :=
  fun _ => trivial

theorem throw {e : Error} (h : e.FoundIn places) : FailsIn places (throw (.error e) : Parser α) :=
  fun _ => ⟨e, rfl, h⟩

theorem failAt {cause : Cause} {p : Position} (hcause : (cause.kind == .lex) = false)
    (hp : places p) : FailsIn places (failAt cause p : Parser α) :=
  throw (foundIn_located hcause hp)

theorem bind {p : Parser α} {f : α → Parser β} (hp : FailsIn places p)
    (hf : ∀ a, FailsIn places (f a)) : FailsIn places (p >>= f) := by
  intro env
  rw [after_bind]
  exact (hp env).mono (fun a env' _ => hf a env') fun _ _ h => h

theorem map {p : Parser α} (f : α → β) (hp : FailsIn places p) : FailsIn places (f <$> p) := by
  intro env
  rw [after_map]
  exact hp env

theorem mapM {f : α → Parser β} (hf : ∀ a, FailsIn places (f a)) (as : List α) :
    FailsIn places (as.mapM f) := by
  induction as with
  | nil => exact pure []
  | cons a as ih =>
      rw [List.mapM_cons]
      exact (hf a).bind fun b => ih.bind fun bs => pure (b :: bs)

end FailsIn

theorem failsIn_resolve (scope : Scope) (name : String) : FailsIn places (resolve scope name) :=
  fun _ => trivial

theorem failsIn_functionIndex (name : String) {cause : Cause} {pos : Position}
    (hcause : (cause.kind == .lex) = false) (hpos : places pos) :
    FailsIn places (do
      match (← get).functionIndex? name with
      | some i => return i
      | none => Parser.failAt cause pos) := by
  refine FailsIn.bind (fun _ => trivial) fun env => ?_
  cases env.functionIndex? name with
  | none => exact FailsIn.failAt hcause hpos
  | some i => exact FailsIn.pure i

theorem failsIn_callee (name : String) {pos : Position} (hpos : places pos) :
    FailsIn places (callee name pos) :=
  failsIn_functionIndex name rfl hpos

theorem failsIn_implemented (name : String) {pos : Position} (hpos : places pos) :
    FailsIn places (implemented name pos) :=
  failsIn_functionIndex name rfl hpos

theorem failsIn_define (name : String) {pos : Position} (hpos : places pos)
    (params : List Param) : FailsIn places (define name pos params) := by
  intro env
  rw [define, after_bind, after_get]
  cases h : env.define name params with
  | ok env' => trivial
  | error cause =>
      have hcause : (cause.kind == .lex) = false := by
        unfold Environment.define at h
        split at h
        · cases h
        · split at h
          · cases h
          · cases h
            rfl
      exact FailsIn.failAt hcause hpos env

theorem failsIn_simpleArgument {part : List Token} {simple : Parser Argument}
    (h : simpleArgument scope part = some simple) : FailsIn places simple := by
  unfold simpleArgument at h
  split at h
  · cases h
    exact (failsIn_resolve scope _).map _
  · obtain ⟨v, _, rfl⟩ := Option.map_eq_some_iff.1 h
    exact FailsIn.pure _
  · cases h

/-- Terms, elements and arguments fail at one of their tokens, however deep they are nested. -/
theorem failsIn_terms_elements_arguments (places : Position → Prop) (scope : Scope) :
    (∀ operand ts, TokensIn places ts → FailsIn places (terms scope operand ts)) ∧
      (∀ parts, (∀ part ∈ parts, TokensIn places part) →
        FailsIn places (elements scope parts)) ∧
      ∀ parts, (∀ part ∈ parts, TokensIn places part) →
        FailsIn places (arguments scope parts) := by
  apply terms.mutual_induct scope
    (fun operand ts => TokensIn places ts → FailsIn places (terms scope operand ts))
    (fun parts => (∀ part ∈ parts, TokensIn places part) → FailsIn places (elements scope parts))
    (fun parts => (∀ part ∈ parts, TokensIn places part) → FailsIn places (arguments scope parts))
  case case1 =>
    intro operand _
    rw [terms_nil]
    exact FailsIn.pure []
  case case2 =>
    intro operand t ts v hv ih hts
    rw [terms_literal hv]
    exact (ih hts.tail).bind fun rest => FailsIn.pure _
  case case3 =>
    intro operand t ts _ o ho v rest hs ih hts
    rw [terms_op ho, hs]
    obtain ⟨number, w, rfl, -⟩ := exists_literal_of_signed? hs
    exact (ih hts.tail.tail).bind fun rest => FailsIn.pure _
  case case4 =>
    intro operand t ts _ o ho hs ih hts
    rw [terms_op ho, hs]
    exact (ih hts.tail).bind fun rest => FailsIn.pure _
  case case5 =>
    intro operand t ts _ word hw paren after hp ihargs ihrest hts
    rw [terms_name hw, hp]
    have hafter : TokensIn places (paren :: after) := Extent.callParen?_eq hp ▸ hts.tail
    refine (failsIn_callee word hts.head).bind fun function => ?_
    cases hg : Bracket.paren.group? 0 after with
    | none => exact FailsIn.failAt rfl hafter.head
    | some g =>
        obtain ⟨hinner, hrest⟩ := hafter.tail.group hg
        refine (ihargs g hg (hinner.parts 0)).bind fun args => ?_
        exact (ihrest g hg hrest).bind fun rest => FailsIn.pure _
  case case6 =>
    intro operand t ts _ word hw hp ih hts
    rw [terms_name hw, hp]
    exact (failsIn_resolve scope word).bind fun slot =>
      (ih hts.tail).bind fun rest => FailsIn.pure _
  case case7 =>
    intro t ts _ hb hg hts
    rw [terms_openBrace hb, hg]
    exact FailsIn.failAt rfl hts.head
  case case8 =>
    intro t ts _ hb g hg ihitems ihrest hts
    rw [terms_openBrace hb, hg]
    obtain ⟨hinner, hrest⟩ := hts.tail.group hg
    refine (ihitems (hinner.parts 0)).bind fun items => ?_
    exact (ihrest hrest).bind fun rest => FailsIn.pure _
  case case9 =>
    intro operand t ts _ hb hoperand hts
    rw [terms_openBrace hb, if_neg hoperand]
    exact FailsIn.failAt rfl hts.head
  case case10 =>
    intro operand t ts _ hp ih hts
    rw [terms_openParen hp]
    exact (ih hts.tail).bind fun rest => FailsIn.pure _
  case case11 =>
    intro operand t ts _ hp ih hts
    rw [terms_closeParen hp]
    exact (ih hts.tail).bind fun rest => FailsIn.pure _
  case case12 =>
    intro operand t ts hliteral hop hname hbrace hopen hclose hts
    rw [terms_other hliteral hop hname hbrace hopen hclose]
    exact FailsIn.failAt rfl hts.head
  case case13 =>
    intro _
    rw [elements_nil]
    exact FailsIn.pure []
  case case14 =>
    intro parts ih hparts
    rw [elements_skip]
    exact ih (List.forall_mem_cons.1 hparts).2
  case case15 =>
    intro t ts parts ihitem ihrest hparts
    rw [elements_cons]
    obtain ⟨hpart, hparts⟩ := List.forall_mem_cons.1 hparts
    exact (ihitem hpart).bind fun item => (ihrest hparts).bind fun rest => FailsIn.pure _
  case case16 =>
    intro _
    rw [arguments_nil]
    exact FailsIn.pure []
  case case17 =>
    intro parts ih hparts
    rw [arguments_skip]
    exact ih (List.forall_mem_cons.1 hparts).2
  case case18 =>
    intro t ts parts simple hsimple ih hparts
    rw [arguments_simple parts hsimple]
    exact (failsIn_simpleArgument hsimple).bind fun arg =>
      (ih (List.forall_mem_cons.1 hparts).2).bind fun rest => FailsIn.pure _
  case case19 =>
    intro t ts parts hsimple ih ihterms hparts
    rw [arguments_expr parts hsimple]
    obtain ⟨hpart, hparts⟩ := List.forall_mem_cons.1 hparts
    exact ((ihterms hpart).map _).bind fun arg => (ih hparts).bind fun rest => FailsIn.pure _

theorem failsIn_expression (scope : Scope) (hne : ts ≠ []) (hts : TokensIn places ts) :
    FailsIn places (expression scope ts) := by
  cases ts with
  | nil => exact absurd rfl hne
  | cons t ts =>
      have hterms := (failsIn_terms_elements_arguments places scope).1 true (t :: ts) hts
      exact hterms.bind fun _ => FailsIn.pure _

/-- What follows on the head of a statement works with tokens of the statement only. -/
theorem FailsIn.headed_bind {after : Token} {last : Position} (hafter : places after.pos)
    (hlast : places last) (hts : TokensIn places ts)
    {f : { h : Headed // h.body.length < ts.length ∧ h.rest.length < ts.length } → Parser β}
    (hf : ∀ h, TokensIn places h.1.body → TokensIn places h.1.rest → FailsIn places (f h)) :
    FailsIn places (headed scope after last ts >>= f) := by
  unfold headed
  split
  · rename_i hx
    exact FailsIn.throw (takeExpression_foundIn hx hafter hts)
  · rename_i x hx
    obtain ⟨hinside, hrest⟩ := hts.expression hx
    rw [bind_assoc]
    refine (failsIn_expression scope (takeExpression_append hx).2 hinside).bind fun head => ?_
    split
    · rename_i hb
      exact FailsIn.throw (takeBlock_foundIn hb hlast hrest)
    · rename_i g hb
      rw [pure_bind]
      exact hf _ (hrest.block hb).1 (hrest.block hb).2

/-- A statement with a head and a body, followed by the rest of the block. -/
theorem FailsIn.headed_stmt {after : Token} {last : Position} (hafter : places after.pos)
    (hlast : places last) (hts : TokensIn places ts) {make : Expr → List Stmt → Stmt}
    {body rest : Headed → Parser (List Stmt)}
    (hbody : ∀ h : Headed, h.body.length < ts.length ∧ h.rest.length < ts.length →
      TokensIn places h.body → FailsIn places (body h))
    (hrest : ∀ h : Headed, h.body.length < ts.length ∧ h.rest.length < ts.length →
      TokensIn places h.rest → FailsIn places (rest h)) :
    FailsIn places (do
      let h ← headed scope after last ts
      let stmts ← body h.1
      let stmts' ← rest h.1
      return make h.1.head stmts :: stmts') := by
  refine FailsIn.headed_bind hafter hlast hts fun h hbodyIn hrestIn => ?_
  exact (hbody h.1 h.2 hbodyIn).bind fun stmts =>
    (hrest h.1 h.2 hrestIn).bind fun stmts' => FailsIn.pure _

/-- A block fails at one of its tokens, whatever they are. -/
theorem failsIn_block (places : Position → Prop) (scope : Scope) (ts : List Token)
    (hts : TokensIn places ts) : FailsIn places (block scope ts) := by
  induction scope, ts using block.induct with
  | case1 scope =>
      rw [block_nil]
      exact FailsIn.pure []
  | case2 scope t ts hs e hx =>
      rw [block_expression hs, hx]
      exact FailsIn.throw (takeExpression_foundIn hx hts.head hts)
  | case3 scope t ts hs x hx ih =>
      rw [block_expression hs, hx]
      obtain ⟨hinside, hrest⟩ := hts.expression hx
      refine (failsIn_expression scope (takeExpression_append hx).2 hinside).bind fun e => ?_
      exact (ih hrest).bind fun rest => FailsIn.pure _
  | case4 scope t ts _ ht ih =>
      rw [block_semicolon ht]
      exact ih hts.tail
  | case5 scope t ts _ ht ih =>
      rw [block_comma ht]
      exact ih hts.tail
  | case6 scope t ts _ ht e hn =>
      rw [block_def ht, hn]
      exact FailsIn.throw (expectName_foundIn hn hts.head hts.tail)
  | case7 scope t ts last _ ht name pos after hn e hp =>
      rw [block_def ht, hn]
      dsimp only
      rw [hp]
      exact FailsIn.throw (parameters_foundIn hp hts.last (hts.tail.name hn).2)
  | case8 scope t ts last _ ht name pos after hn params rest hp ih =>
      rw [block_def ht, hn]
      dsimp only
      rw [hp]
      obtain ⟨hpos, hafter⟩ := hts.tail.name hn
      refine (failsIn_define name hpos params).bind fun _ => ih (hafter.of_subset ?_)
      exact (parameters_suffix hp).subset
  | case9 scope t ts _ ht e hn =>
      rw [block_imp ht, hn]
      exact FailsIn.throw (expectName_foundIn hn hts.head hts.tail)
  | case10 scope t ts last _ ht name pos after hn ihbody ihrest =>
      rw [block_imp ht, hn]
      obtain ⟨hpos, hafter⟩ := hts.tail.name hn
      refine (failsIn_implemented name hpos).bind fun function => ?_
      cases hb : takeBlock last after with
      | error e => exact FailsIn.throw (takeBlock_foundIn hb hts.last hafter)
      | ok g =>
          refine (ihbody function g hb (hafter.block hb).1).bind fun body => ?_
          refine FailsIn.bind (fun _ => trivial) fun _ => ihrest g hb (hafter.block hb).2
  | case11 scope t ts _ ht ihbody ihrest =>
      rw [block_if ht]
      exact FailsIn.headed_stmt hts.head hts.last hts.tail ihbody ihrest
  | case12 scope t ts _ ht ihbody ihrest =>
      rw [block_while ht]
      exact FailsIn.headed_stmt hts.head hts.last hts.tail ihbody ihrest
  | case13 scope t ts last _ ht e hv =>
      rw [block_for ht, hv]
      exact FailsIn.throw (loopVariables_foundIn hv hts.last hts.tail)
  | case14 scope t ts last _ ht names after hv ihbody ihrest =>
      rw [block_for ht, hv]
      refine (FailsIn.mapM (failsIn_resolve scope) names).bind fun vars => ?_
      have hafter := hts.tail.of_subset (loopVariables_suffix hv).subset
      have hnone : FailsIn places (Parser.failAt .noLoopVariable t.pos : Parser PUnit) :=
        FailsIn.failAt rfl hts.head
      dsimp only
      split
      · exact hnone.bind fun _ => FailsIn.headed_stmt hts.head hts.last hafter ihbody ihrest
      · exact FailsIn.headed_stmt hts.head hts.last hafter ihbody ihrest
  | case15 scope t ts _ ht ih =>
      rw [block_return ht]
      exact (ih hts.tail).bind fun rest => FailsIn.pure _
  | case16 scope t ts _ ht ih =>
      rw [block_break ht]
      exact (ih hts.tail).bind fun rest => FailsIn.pure _
  | case17 scope t ts _ ht ih =>
      rw [block_continue ht]
      exact (ih hts.tail).bind fun rest => FailsIn.pure _
  | case18 scope t ts last _ ht e hb =>
      rw [block_openBrace ht, hb]
      exact FailsIn.throw (takeBlock_foundIn hb hts.last hts)
  | case19 scope t ts last _ ht g hb ihinner ihrest =>
      rw [block_openBrace ht, hb]
      obtain ⟨hinner, hrest⟩ := hts.block hb
      exact (ihinner hinner).bind fun stmts => (ihrest hrest).bind fun rest => FailsIn.pure _
  | case20 scope t ts hstart h1 h2 h3 h4 h5 h6 h7 h8 h9 h10 h11 =>
      rw [block_other hstart h1 h2 h3 h4 h5 h6 h7 h8 h9 h10 h11]
      exact FailsIn.failAt rfl hts.head

end Parser

end Scriptlet
