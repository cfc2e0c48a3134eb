import Scriptlet.Proofs.Parsing.Reading

/-!
# Accepted programs close their braces

A closing brace is found by counting. The braces of an accepted program open and close in
pairs, so it can stand inside of braces without being cut short. `Level` says that counting
passes over the tokens as if there were no brace among them. The main statement is
`Reads.level`: the tokens of an accepted program are level. Expressions are the hard part,
because the parentheses of a call may hold any tokens when they are matched; only the
arguments inside show that no brace is left open.
-/

namespace Scriptlet

/-! ### Counting braces -/

section Counting

variable {depth : Nat} {t : Token} {ts : List Token}

theorem group?_open (h : t.lexeme = .openBrace) :
    Bracket.brace.group? depth (t :: ts) =
      (Bracket.brace.group? (depth + 1) ts).map (Group.cons t) := by
  conv => lhs; unfold Bracket.group?
  rw [h]
  rfl

theorem group?_close (h : t.lexeme = .closeBrace) :
    Bracket.brace.group? (depth + 1) (t :: ts) =
      (Bracket.brace.group? depth ts).map (Group.cons t) := by
  conv => lhs; unfold Bracket.group?
  rw [h]
  rfl

theorem group?_close_zero (h : t.lexeme = .closeBrace) :
    Bracket.brace.group? 0 (t :: ts) = some ⟨[], t, ts⟩ := by
  unfold Bracket.group?
  rw [h]
  rfl

theorem group?_other (hopen : t.lexeme ≠ .openBrace) (hclose : t.lexeme ≠ .closeBrace) :
    Bracket.brace.group? depth (t :: ts) =
      (Bracket.brace.group? depth ts).map (Group.cons t) := by
  have hopens : ¬Bracket.brace.opens t.lexeme := mt Bracket.opens_brace_iff.1 hopen
  have hcloses : ¬Bracket.brace.closes t.lexeme := mt Bracket.closes_iff.1 hclose
  conv => lhs; unfold Bracket.group?
  rw [if_neg hopens, if_neg hcloses]

end Counting

/-- Whether the search for a closing brace passes over the tokens. -/
def Level (ts : List Token) : Prop :=
  ∀ depth more, Bracket.brace.group? depth (ts ++ more) =
    (Bracket.brace.group? depth more).map fun g => { g with inner := ts ++ g.inner }

theorem level_nil : Level [] := by
  intro depth more
  rw [List.nil_append]
  exact (Option.map_id' ..).symm

theorem Level.append {ts us : List Token} (hts : Level ts) (hus : Level us) :
    Level (ts ++ us) := by
  intro depth more
  rw [List.append_assoc, hts, hus, Option.map_map]
  simp only [Function.comp_def, List.append_assoc]

/-- Any token but a brace may stand in front. -/
theorem Level.cons {t : Token} {ts : List Token} {l : Lexeme} (hts : Level ts)
    (ht : t.lexeme = l) (hl : l ≠ .openBrace ∧ l ≠ .closeBrace) : Level (t :: ts) := by
  subst ht
  intro depth more
  rw [List.cons_append, group?_other hl.1 hl.2, hts, Option.map_map]
  rfl

/-- The search goes on after the end of a group, one level further out. -/
theorem group?_closed {depth : Nat} {ts : List Token} {g : Group}
    (h : Bracket.brace.group? depth ts = some g) (outer : Nat) (more : List Token) :
    Bracket.brace.group? (outer + depth + 1) (g.inner ++ g.close :: more) =
      (Bracket.brace.group? outer more).map fun g' =>
        { g' with inner := g.inner ++ g.close :: g'.inner } := by
  -- Both searches meet the same braces, so the second stays `outer + 1` levels further in.
  induction ts generalizing depth g with
  | nil => cases h
  | cons t ts ih =>
      by_cases hopen : t.lexeme = .openBrace
      · rw [group?_open hopen] at h
        obtain ⟨g', hg, rfl⟩ := Option.map_eq_some_iff.1 h
        have hrest := ih hg
        rw [← Nat.add_assoc] at hrest
        simp only [Group.cons, List.cons_append]
        rw [group?_open hopen, hrest, Option.map_map]
        rfl
      · by_cases hclose : t.lexeme = .closeBrace
        · cases depth with
          | zero =>
              rw [group?_close_zero hclose] at h
              cases h
              rw [List.nil_append, Nat.add_zero, group?_close hclose]
              rfl
          | succ below =>
              rw [group?_close hclose] at h
              obtain ⟨g', hg, rfl⟩ := Option.map_eq_some_iff.1 h
              simp only [Group.cons, List.cons_append]
              rw [← Nat.add_assoc, group?_close hclose, ih hg, Option.map_map]
              rfl
        · rw [group?_other hopen hclose] at h
          obtain ⟨g', hg, rfl⟩ := Option.map_eq_some_iff.1 h
          simp only [Group.cons, List.cons_append]
          rw [group?_other hopen hclose, ih hg, Option.map_map]
          rfl

theorem level_group {t : Token} {ts : List Token} {g : Group} (ht : t.lexeme = .openBrace)
    (h : Bracket.brace.group? 0 ts = some g) : Level (t :: g.inner ++ [g.close]) := by
  intro depth more
  have hclosed := group?_closed h depth more
  rw [Nat.add_zero] at hclosed
  simp only [List.cons_append, List.append_assoc, List.nil_append]
  rw [group?_open ht, hclosed, Option.map_map]
  rfl

theorem Lexeme.eq_comma {l : Lexeme} (h : l.isComma = true) : l = .comma := by
  revert h
  cases l <;> simp [isComma]

/-- What holds of all parts between commas, of a comma, and of tokens put together from such,
holds of the whole. The tokens of the first part that are behind already are `front`. -/
theorem append_of_splitCommas {holds : List Token → Prop}
    (happend : ∀ us vs, holds us → holds vs → holds (us ++ vs))
    (hcomma : ∀ t : Token, t.lexeme = .comma → holds [t])
    {depth : Int} {ts front first : List Token} {others : List (List Token)}
    (hs : splitCommas depth ts = first :: others) (hfirst : holds (front ++ first))
    (hothers : ∀ part ∈ others, holds part) : holds (front ++ ts) := by
  induction ts generalizing depth front first others with
  | nil =>
      cases hs
      exact hfirst
  | cons t ts ih =>
      unfold splitCommas at hs
      split at hs
      · rename_i hcut
        have hlexeme : t.lexeme = .comma := Lexeme.eq_comma (Bool.and_eq_true_iff.1 hcut).1
        cases hs
        -- The first part ends here, and nothing of the next one is behind yet.
        rw [List.append_nil] at hfirst
        obtain ⟨next, later, hnext⟩ := List.exists_cons_of_ne_nil (splitCommas_ne_nil depth ts)
        rw [hnext, List.forall_mem_cons] at hothers
        have hlater : holds ([] ++ ts) := ih hnext hothers.1 hothers.2
        rw [List.nil_append] at hlater
        exact happend front (t :: ts) hfirst (happend [t] ts (hcomma t hlexeme) hlater)
      · obtain ⟨part, parts, hpart⟩ :=
          List.exists_cons_of_ne_nil (splitCommas_ne_nil (t.lexeme.depthAfter depth) ts)
        rw [hpart] at hs
        cases hs
        have hmoved : holds ((front ++ [t]) ++ ts) := by
          refine ih hpart ?_ hothers
          rwa [List.append_assoc]
        rwa [List.append_assoc] at hmoved

theorem of_splitCommas {holds : List Token → Prop}
    (happend : ∀ us vs, holds us → holds vs → holds (us ++ vs))
    (hcomma : ∀ t : Token, t.lexeme = .comma → holds [t]) {ts : List Token}
    (h : ∀ part ∈ splitCommas 0 ts, holds part) : holds ts := by
  obtain ⟨first, others, hs⟩ := List.exists_cons_of_ne_nil (splitCommas_ne_nil 0 ts)
  rw [hs, List.forall_mem_cons] at h
  have hwhole : holds ([] ++ ts) := append_of_splitCommas happend hcomma hs h.1 h.2
  rwa [List.nil_append] at hwhole

theorem level_of_splitCommas {ts : List Token} (h : ∀ part ∈ splitCommas 0 ts, Level part) :
    Level ts :=
  of_splitCommas (fun _ _ => Level.append) (fun _ ht => level_nil.cons ht (by simp)) h

theorem Bracket.group?_closes {b : Bracket} {depth : Nat} {ts : List Token} {g : Group}
    (h : b.group? depth ts = some g) : b.closes g.close.lexeme := by
  induction ts generalizing depth g with
  | nil => cases h
  | cons t ts ih =>
      unfold group? at h
      split at h
      · obtain ⟨g', hg, rfl⟩ := Option.map_eq_some_iff.1 h
        exact (ih hg :)
      · split at h
        · rename_i hcloses
          split at h
          · cases h
            exact hcloses
          · obtain ⟨g', hg, rfl⟩ := Option.map_eq_some_iff.1 h
            exact (ih hg :)
        · obtain ⟨g', hg, rfl⟩ := Option.map_eq_some_iff.1 h
          exact (ih hg :)

theorem Bracket.group?_closeParen {depth : Nat} {ts : List Token} {g : Group}
    (h : Bracket.paren.group? depth ts = some g) : g.close.lexeme = .closeParen :=
  Bracket.closes_iff.1 (Bracket.group?_closes h)

theorem Bracket.group?_closeBrace {depth : Nat} {ts : List Token} {g : Group}
    (h : Bracket.brace.group? depth ts = some g) : g.close.lexeme = .closeBrace :=
  Bracket.closes_iff.1 (Bracket.group?_closes h)

theorem Extent.callParen?_lexeme {l : Lexeme} {ts rest : List Token} {t : Token}
    (h : callParen? l ts = some (t, rest)) : t.lexeme = .openParen := by
  unfold callParen? at h
  split at h
  · cases h
    rfl
  · cases h

namespace Parser

theorem level_literal {t : Token} {ts : List Token} {v : Value}
    (h : literal? t.lexeme = some v) (hts : Level ts) : Level (t :: ts) := by
  refine hts.cons rfl ⟨?_, ?_⟩
  · intro hopen
    rw [hopen] at h
    cases h
  · intro hclose
    rw [hclose] at h
    cases h

theorem level_signed? {o : Operator} {operand : Bool} {ts rest : List Token} {v : Value}
    (h : signed? o operand ts = some (v, rest)) (hrest : Level rest) : Level ts := by
  unfold signed? at h
  split at h
  · unfold negated? at h
    split at h
    · cases h
      exact hrest.cons rfl (by simp)
    · cases h
      exact hrest.cons rfl (by simp)
    · cases h
  · cases h

/-! ### Expressions -/

theorem level_simpleArgument {scope : Scope} {part : List Token} {simple : Parser Argument}
    (h : simpleArgument scope part = some simple) : Level part := by
  unfold simpleArgument at h
  split at h
  · exact level_nil.cons rfl (by simp)
  · obtain ⟨v, hv, _⟩ := Option.map_eq_some_iff.1 h
    exact level_literal hv level_nil
  · cases h

/-- Terms, elements and arguments are made of level tokens only. -/
theorem level_terms_elements_arguments (scope : Scope) :
    (∀ operand ts, Yields (terms scope operand ts) fun _ => Level ts) ∧
      (∀ parts, Yields (elements scope parts) fun _ => ∀ part ∈ parts, Level part) ∧
        ∀ parts, Yields (arguments scope parts) fun _ => ∀ part ∈ parts, Level part := by
  apply terms.mutual_induct scope
    (fun operand ts => Yields (terms scope operand ts) fun _ => Level ts)
    (fun parts => Yields (elements scope parts) fun _ => ∀ part ∈ parts, Level part)
    fun parts => Yields (arguments scope parts) fun _ => ∀ part ∈ parts, Level part
  case case1 =>
    intro operand
    exact Yields.of _ fun _ => level_nil
  case case2 =>
    intro operand t ts v hv ih
    rw [terms_literal hv]
    exact ih.bind fun _ hts => Yields.pure (level_literal hv hts)
  case case3 =>
    intro operand t ts _ o ho v rest hs ih
    rw [terms_op ho, hs]
    exact ih.bind fun _ hrest => Yields.pure ((level_signed? hs hrest).cons ho (by simp))
  case case4 =>
    intro operand t ts _ o ho hs ih
    rw [terms_op ho, hs]
    exact ih.bind fun _ hts => Yields.pure (hts.cons ho (by simp))
  case case5 =>
    intro operand t ts _ word hw paren after hp ihargs ihrest
    rw [terms_name hw, hp]
    refine (Yields.any _).bind fun function _ => ?_
    cases hg : Bracket.paren.group? 0 after with
    | none => exact Yields.throw _
    | some g =>
        refine (ihargs g hg).bind fun args hargs => (ihrest g hg).bind fun rest hrest =>
          Yields.pure ?_
        -- The parentheses were matched without regard to braces. It is the arguments that
        -- leave none of them open.
        have hparen := Extent.callParen?_lexeme hp
        have hclose := Bracket.group?_closeParen hg
        rw [Extent.callParen?_eq hp, Bracket.group?_append hg]
        have hinner := (level_of_splitCommas hargs).append (hrest.cons hclose (by simp))
        exact (hinner.cons hparen (by simp)).cons hw (by simp)
  case case6 =>
    intro operand t ts _ word hw hp ih
    rw [terms_name hw, hp]
    refine (Yields.any _).bind fun slot _ => ih.bind fun rest hts => ?_
    exact Yields.pure (hts.cons hw (by simp))
  case case7 =>
    intro t ts _ hb hg
    rw [terms_openBrace hb, hg]
    exact Yields.throw _
  case case8 =>
    intro t ts _ hb g hg ihitems ihrest
    rw [terms_openBrace hb, hg]
    refine ihitems.bind fun items _ => ihrest.bind fun rest hrest => Yields.pure ?_
    rw [Bracket.group?_append hg]
    simpa using (level_group hb hg).append hrest
  case case9 =>
    intro operand t ts _ hb hoperand
    rw [terms_openBrace hb, if_neg hoperand]
    exact Yields.throw _
  case case10 =>
    intro operand t ts _ hp ih
    rw [terms_openParen hp]
    exact ih.bind fun _ hts => Yields.pure (hts.cons hp (by simp))
  case case11 =>
    intro operand t ts _ hp ih
    rw [terms_closeParen hp]
    exact ih.bind fun _ hts => Yields.pure (hts.cons hp (by simp))
  case case12 =>
    intro operand t ts hliteral hop hname hbrace hopen hclose
    rw [terms_other hliteral hop hname hbrace hopen hclose]
    exact Yields.throw _
  case case13 => exact Yields.of _ fun _ => List.forall_mem_nil _
  case case14 =>
    intro parts ih
    rw [elements_skip]
    exact ih.mono fun _ hparts => List.forall_mem_cons.2 ⟨level_nil, hparts⟩
  case case15 =>
    intro t ts parts ihitem ihrest
    rw [elements_cons]
    exact ihitem.bind fun item hitem => ihrest.bind fun rest hparts =>
      Yields.pure (List.forall_mem_cons.2 ⟨hitem, hparts⟩)
  case case16 => exact Yields.of _ fun _ => List.forall_mem_nil _
  case case17 =>
    intro parts ih
    rw [arguments_skip]
    exact ih.mono fun _ hparts => List.forall_mem_cons.2 ⟨level_nil, hparts⟩
  case case18 =>
    intro t ts parts simple hsimple ih
    rw [arguments_simple parts hsimple]
    refine (Yields.any _).bind fun arg _ => ih.bind fun rest hparts =>
      Yields.pure (List.forall_mem_cons.2 ⟨?_, hparts⟩)
    exact level_simpleArgument hsimple
  case case19 =>
    intro t ts parts hsimple ih ihterms
    rw [arguments_expr parts hsimple]
    have harg : Yields ((fun made => Argument.expr (.mk made t.pos)) <$>
        terms scope true (t :: ts)) fun _ => Level (t :: ts) :=
      Yields.map _ ihterms
    exact harg.bind fun arg hts => ih.bind fun rest hparts =>
      Yields.pure (List.forall_mem_cons.2 ⟨hts, hparts⟩)

theorem level_of_expression {scope : Scope} {ts : List Token} {env env' : Environment} {e : Expr}
    (h : expression scope ts env = .ok e env') : Level ts := by
  cases ts with
  | nil => cases h
  | cons t ts =>
      have hterms := (level_terms_elements_arguments scope).1 true (t :: ts)
      have hyields : Yields (expression scope (t :: ts)) fun _ => Level (t :: ts) :=
        hterms.bind fun _ hts => Yields.pure hts
      exact hyields.of_ok h

/-! ### Statements -/

theorem level_parameters {function : String} {last : Position} {byRef : Bool}
    {ts rest : List Token} {params : List Param}
    (h : parameters function last byRef ts = .ok (params, rest)) (hrest : Level rest) :
    Level ts := by
  induction ts generalizing byRef params with
  | nil => cases h
  | cons t ts ih =>
      unfold parameters at h
      split at h
      · rename_i ht
        cases h
        exact hrest.cons ht (by simp)
      · rename_i ht
        exact (ih h).cons ht (by simp)
      · rename_i ht
        exact (ih h).cons ht (by simp)
      · rename_i ht
        obtain ⟨⟨params', rest'⟩, hp, heq⟩ := Extent.map_eq_ok h
        cases heq
        exact (ih hp).cons ht (by simp)
      · cases h

theorem level_loopVariables {last : Position} {ts rest : List Token} {names : List String}
    (h : loopVariables last ts = .ok (names, rest)) (hrest : Level rest) : Level ts := by
  induction ts generalizing names with
  | nil => cases h
  | cons t ts ih =>
      unfold loopVariables at h
      split at h
      · rename_i ht
        cases h
        exact hrest.cons ht (by simp)
      · rename_i ht
        exact (ih h).cons ht (by simp)
      · rename_i ht
        obtain ⟨⟨names', rest'⟩, hn, heq⟩ := Extent.map_eq_ok h
        cases heq
        exact (ih hn).cons ht (by simp)
      · cases h

theorem level_expectName {after : Token} {ts rest : List Token} {name : String} {pos : Position}
    (h : expectName after ts = .ok (name, pos, rest)) (hrest : Level rest) : Level ts := by
  obtain ⟨target, rfl, htarget⟩ := expectName_eq h
  exact hrest.cons htarget (by simp)

theorem level_takeBlock {last : Position} {ts : List Token} {g : Group}
    (h : takeBlock last ts = .ok g) (hrest : Level g.rest) : Level ts := by
  obtain ⟨opening, rfl, hopening, hg⟩ := takeBlock_eq h
  simpa using (level_group hopening hg).append hrest

theorem ReadsHead.level {scope : Scope} {after : Token} {ts : List Token} {head : Expr} {g : Group}
    {env env' : Environment} (h : ReadsHead scope after ts env head g env')
    (hrest : Level g.rest) : Level ts := by
  obtain ⟨x, last, hx, hhead, hb⟩ := h
  rw [← (takeExpression_append hx).1]
  exact (level_of_expression hhead).append (level_takeBlock hb hrest)

/-- Accepted programs are level. -/
theorem Reads.level {scope : Scope} {ts : List Token} {env env' : Environment}
    {stmts : List Stmt} (h : Reads scope ts env stmts env') : Level ts := by
  induction h with
  | nil => exact level_nil
  | expr ht hx he hrest ih =>
      rw [← (takeExpression_append hx).1]
      exact (level_of_expression he).append ih
  | separator ht hrest ih =>
      rcases ht with ht | ht
      · exact ih.cons ht (by simp)
      · exact ih.cons ht (by simp)
  | define ht hn hp hdefine hrest ih =>
      exact (level_expectName hn (level_parameters hp ih)).cons ht (by simp)
  | implement ht hn hk hb hbody hrest ihbody ihrest =>
      exact (level_expectName hn (level_takeBlock hb ihrest)).cons ht (by simp)
  | cond ht hhead hbody hrest ihbody ihrest =>
      exact (hhead.level ihrest).cons ht (by simp)
  | loop ht hhead hbody hrest ihbody ihrest =>
      exact (hhead.level ihrest).cons ht (by simp)
  | each ht hv hvars hne hhead hbody hrest ihbody ihrest =>
      exact (level_loopVariables hv (hhead.level ihrest)).cons ht (by simp)
  | returnNow ht hrest ih => exact ih.cons ht (by simp)
  | breakLoop ht hrest ih => exact ih.cons ht (by simp)
  | continueLoop ht hrest ih => exact ih.cons ht (by simp)
  | braces ht hb hinner hrest ihinner ihrest => exact level_takeBlock hb ihrest

/-- An accepted program is accepted between braces too, and it is the same program there. -/
theorem Reads.braced {scope : Scope} {ts : List Token} {env env' : Environment}
    {stmts : List Stmt} (h : Reads scope ts env stmts env') {opening closing : Token}
    (hopening : opening.lexeme = .openBrace) (hclosing : closing.lexeme = .closeBrace) :
    Reads scope (opening :: (ts ++ [closing])) env stmts env' := by
  have hb : takeBlock .start (opening :: (ts ++ [closing])) = .ok ⟨ts, closing, []⟩ := by
    rw [takeBlock, hopening, if_pos (show Bracket.brace.opens .openBrace = true from rfl), h.level,
      group?_close_zero hclosing]
    simp
  have hbraces := Reads.braces hopening hb h Reads.nil
  rwa [List.append_nil] at hbraces

end Parser

end Scriptlet
