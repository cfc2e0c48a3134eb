import Scriptlet.Proofs.Outcome
import Scriptlet.Proofs.Parsing.Soundness
import Scriptlet.Proofs.Program.Recast

/-!
# Parsing and recasting

The parser copies places from tokens to programs and errors without looking at them, and it
finds the index of a global by its name. So parsing recast tokens in a recast environment
gives the recast of what parsing gives, with one condition: none of the tokens is a name in
front, because such a name would be found there. The main statement is
`Parser.recasts_block`, for every outcome.
-/

namespace Scriptlet

namespace Recast

variable {τ : Recast} {ts us : List Token}

/-- Whether none of the tokens is a name in front. -/
def Fresh (τ : Recast) (ts : List Token) : Prop :=
  ∀ t ∈ ts, ∀ name, t.lexeme = .name name → τ.Spares name

theorem Fresh.of_subset (h : τ.Fresh ts) (hsub : us ⊆ ts) : τ.Fresh us :=
  fun t ht => h t (hsub ht)

theorem Fresh.tail {t : Token} (h : τ.Fresh (t :: ts)) : τ.Fresh ts :=
  h.of_subset (List.subset_cons_self t ts)

theorem Fresh.group {b : Bracket} {depth : Nat} {g : Group} (h : τ.Fresh ts)
    (hg : b.group? depth ts = some g) : τ.Fresh g.inner ∧ τ.Fresh g.rest :=
  (Bracket.group?_subset hg).imp h.of_subset h.of_subset

theorem Fresh.splitCommas (h : τ.Fresh ts) (depth : Int) :
    ∀ part ∈ splitCommas depth ts, τ.Fresh part :=
  fun _ hmem => h.of_subset (subset_of_mem_splitCommas hmem)

/-! ### Cutting tokens -/

def group (τ : Recast) (g : Group) : Group :=
  ⟨g.inner.map τ.token, τ.token g.close, g.rest.map τ.token⟩

def extent (τ : Recast) (e : Extent) : Extent :=
  ⟨e.inside.map τ.token, e.rest.map τ.token⟩

theorem except_map {α β : Type} {f : α → α} {f' : β → β} {g g' : α → β}
    (h : ∀ a, f' (g a) = g' (f a)) (x : Except Error α) :
    τ.except f' (x.map g) = (τ.except f x).map g' := by
  cases x with
  | ok a => simp only [Except.map, except, h]
  | error e => rfl

theorem lexeme_token (t : Token) : (τ.token t).lexeme = t.lexeme := rfl

theorem pos_getLastD (t : Token) (ts : List Token) :
    ((ts.map τ.token).getLastD (τ.token t)).pos = τ.place (ts.getLastD t).pos := by
  have hlast : (ts.map τ.token).getLastD (τ.token t) = τ.token (ts.getLastD t) :=
    List.getLastD_map
  rw [hlast]
  rfl

theorem group?_map (b : Bracket) (depth : Nat) (ts : List Token) :
    b.group? depth (ts.map τ.token) = (b.group? depth ts).map τ.group := by
  induction ts generalizing depth with
  | nil => rfl
  | cons t ts ih =>
      have hcons (g? : Option Group) : (g?.map τ.group).map (Group.cons (τ.token t)) =
          (g?.map (Group.cons t)).map τ.group := by
        cases g? <;> rfl
      rw [List.map_cons]
      unfold Bracket.group?
      rw [lexeme_token]
      by_cases hopens : b.opens t.lexeme
      · rw [if_pos hopens, if_pos hopens, ih, hcons]
      · rw [if_neg hopens, if_neg hopens]
        by_cases hcloses : b.closes t.lexeme
        · rw [if_pos hcloses, if_pos hcloses]
          cases depth with
          | zero => rfl
          | succ outer =>
              dsimp only
              rw [ih, hcons]
        · rw [if_neg hcloses, if_neg hcloses, ih, hcons]

theorem splitCommas_map (depth : Int) (ts : List Token) :
    splitCommas depth (ts.map τ.token) = (splitCommas depth ts).map (·.map τ.token) := by
  induction ts generalizing depth with
  | nil => rfl
  | cons t ts ih =>
      have hcons (parts : List (List Token)) :
          consPart (τ.token t) (parts.map (·.map τ.token)) =
            (consPart t parts).map (·.map τ.token) := by
        cases parts <;> rfl
      rw [List.map_cons, Scriptlet.splitCommas, Scriptlet.splitCommas, ih, ih, hcons, lexeme_token]
      split <;> rfl

theorem callParen?_map (l : Lexeme) (ts : List Token) :
    Extent.callParen? l (ts.map τ.token) =
      (Extent.callParen? l ts).map fun found => (τ.token found.1, found.2.map τ.token) := by
  cases ts with
  | nil => cases l <;> rfl
  | cons t ts =>
      obtain ⟨lexeme, pos, length⟩ := t
      cases l <;> cases lexeme <;> rfl

theorem find_map (operand : Bool) (ts : List Token) :
    Extent.find operand (ts.map τ.token) = τ.except τ.extent (Extent.find operand ts) := by
  -- More tokens in front of an extent.
  have hprepend (us : List Token) (e : Extent) :
      τ.extent (e.prepend us) = (τ.extent e).prepend (us.map τ.token) := by
    simp only [Extent.prepend, extent, List.map_append]
  fun_induction Extent.find operand ts with
  | case1 operand =>
      rw [List.map_nil, Extent.find]
      rfl
  | case2 operand t ts h =>
      rw [List.map_cons, Extent.find_cons, lexeme_token, if_pos h]
      rfl
  | case3 operand t ts h h' hoperand =>
      rw [List.map_cons, Extent.find_cons, lexeme_token, if_neg h, if_pos h', if_pos hoperand]
      rfl
  | case4 operand t ts h h' hoperand hg =>
      rw [List.map_cons, Extent.find_cons, lexeme_token, if_neg h, if_pos h', if_neg hoperand,
        group?_map, hg]
      rfl
  | case5 operand t ts h h' hoperand g hg ih =>
      rw [List.map_cons, Extent.find_cons, lexeme_token, if_neg h, if_pos h', if_neg hoperand,
        group?_map, hg]
      dsimp only [Option.map_some, group]
      rw [ih, except_map (hprepend _)]
      simp
  | case6 operand t ts h h' paren after hp hg =>
      rw [List.map_cons, Extent.find_cons, lexeme_token, if_neg h, if_neg h', callParen?_map, hp]
      dsimp only [Option.map_some]
      rw [group?_map, hg]
      rfl
  | case7 operand t ts h h' paren after hp g hg ih =>
      rw [List.map_cons, Extent.find_cons, lexeme_token, if_neg h, if_neg h', callParen?_map, hp]
      dsimp only [Option.map_some]
      rw [group?_map, hg]
      dsimp only [Option.map_some, group]
      rw [ih, except_map (hprepend _)]
      simp
  | case8 operand t ts h h' hp ih =>
      rw [List.map_cons, Extent.find_cons, lexeme_token, if_neg h, if_neg h', callParen?_map, hp]
      dsimp only [Option.map_none]
      rw [ih, except_map (hprepend _)]
      rfl

theorem takeExpression_map (after : Token) (ts : List Token) :
    takeExpression (τ.token after) (ts.map τ.token) =
      τ.except τ.extent (takeExpression after ts) := by
  unfold takeExpression
  rw [find_map]
  cases Extent.find true ts with
  | error e => rfl
  | ok x =>
      obtain ⟨inside, rest⟩ := x
      simp only [except, extent, List.isEmpty_map]
      split
      · cases ts <;> rfl
      · cases rest with
        | nil => rfl
        | cons t rest =>
            simp only [List.map_cons, lexeme_token]
            split <;> rfl

theorem takeBlock_map (last : Position) (ts : List Token) :
    takeBlock (τ.place last) (ts.map τ.token) = τ.except τ.group (takeBlock last ts) := by
  cases ts with
  | nil => rfl
  | cons t ts =>
      rw [List.map_cons, takeBlock, takeBlock, lexeme_token]
      by_cases hopens : Bracket.brace.opens t.lexeme
      · rw [if_pos hopens, if_pos hopens, group?_map]
        cases Bracket.brace.group? 0 ts <;> rfl
      · rw [if_neg hopens, if_neg hopens]
        rfl

/-- What was read from the tokens, with the tokens after it recast. -/
def rest {α : Type} (τ : Recast) (found : α × List Token) : α × List Token :=
  (found.1, found.2.map τ.token)

theorem expectName_map (after : Token) (ts : List Token) :
    Parser.expectName (τ.token after) (ts.map τ.token) =
      τ.except (fun found => (found.1, τ.place found.2.1, found.2.2.map τ.token))
        (Parser.expectName after ts) := by
  cases ts with
  | nil => rfl
  | cons t ts =>
      obtain ⟨lexeme, pos, length⟩ := t
      cases lexeme <;> rfl

theorem parameters_map (function : String) (last : Position) (byRef : Bool) (ts : List Token) :
    Parser.parameters function (τ.place last) byRef (ts.map τ.token) =
      τ.except τ.rest (Parser.parameters function last byRef ts) := by
  induction ts generalizing byRef with
  | nil => rfl
  | cons t ts ih =>
      obtain ⟨lexeme, pos, length⟩ := t
      rw [List.map_cons]
      cases lexeme with
      | ref => exact ih true
      | comma => exact ih byRef
      | name word =>
          simp only [Parser.parameters, token]
          rw [ih]
          refine Eq.symm (except_map ?_ _)
          exact fun _ => rfl
      | _ => rfl

theorem loopVariables_map (last : Position) (ts : List Token) :
    Parser.loopVariables (τ.place last) (ts.map τ.token) =
      τ.except τ.rest (Parser.loopVariables last ts) := by
  induction ts with
  | nil => rfl
  | cons t ts ih =>
      obtain ⟨lexeme, pos, length⟩ := t
      rw [List.map_cons]
      cases lexeme with
      | comma => exact ih
      | name word =>
          simp only [Parser.loopVariables, token]
          rw [ih]
          refine Eq.symm (except_map ?_ _)
          exact fun _ => rfl
      | keyword k => cases k <;> rfl
      | _ => rfl

theorem Fresh.loopVariables {last : Position} {names : List String} {after : List Token}
    (h : τ.Fresh ts) (hv : Parser.loopVariables last ts = .ok (names, after)) :
    ∀ name ∈ names, τ.Spares name := by
  induction ts generalizing names with
  | nil => cases hv
  | cons t ts ih =>
      unfold Parser.loopVariables at hv
      split at hv
      · cases hv
        exact List.forall_mem_nil _
      · exact ih h.tail hv
      · rename_i word hword
        obtain ⟨⟨names', rest'⟩, hn, heq⟩ := Extent.map_eq_ok hv
        cases heq
        exact List.forall_mem_cons.2 ⟨h t List.mem_cons_self word hword, ih h.tail hn⟩
      · cases hv

theorem signed?_map (o : Operator) (operand : Bool) (ts : List Token) :
    Parser.signed? o operand (ts.map τ.token) = (Parser.signed? o operand ts).map τ.rest := by
  unfold Parser.signed?
  split
  · cases ts with
    | nil => rfl
    | cons t ts =>
        obtain ⟨lexeme, pos, length⟩ := t
        cases lexeme <;> rfl
  · rfl

theorem Fresh.signed? {o : Operator} {operand : Bool} {v : Value} {rest : List Token}
    (h : τ.Fresh ts) (hs : Parser.signed? o operand ts = some (v, rest)) : τ.Fresh rest := by
  unfold Parser.signed? at hs
  split at hs
  · unfold Parser.negated? at hs
    split at hs
    · cases hs
      exact h.tail
    · cases hs
      exact h.tail
    · cases hs
  · cases hs

end Recast

namespace Parser

open Recast

variable {α β : Type} {τ : Recast} {f : α → α} {f' : β → β} {ts : List Token}

/-- The outcome, recast. -/
def recastOutcome (τ : Recast) (f : α → α) :
    EStateM.Result Failure Environment α → EStateM.Result Failure Environment α
  | .ok a env => .ok (f a) (τ.env env)
  | .error e env => .error (τ.failure e) (τ.env env)

/-- Whether `q` does in recast environments what `p` does. -/
def Recasts (τ : Recast) (f : α → α) (p q : Parser α) : Prop :=
  ∀ env : Environment, q (τ.env env) = recastOutcome τ f (p env)

theorem Recasts.pure {a b : α} (h : b = f a) : Recasts τ f (pure a) (pure b) := by
  subst h
  exact fun env => rfl

theorem Recasts.throw {e e' : Error} (h : e' = τ.error e) :
    Recasts τ f (throw (.error e)) (throw (.error e')) := by
  subst h
  exact fun env => rfl

theorem Recasts.bind {p q : Parser α} {next next' : α → Parser β} (hp : Recasts τ f p q)
    (hnext : ∀ a, Recasts τ f' (next a) (next' (f a))) :
    Recasts τ f' (p >>= next) (q >>= next') := by
  intro env
  have hq := hp env
  cases h : p env with
  | ok a env₁ =>
      rw [h] at hq
      rw [bind_of_ok h, bind_of_ok hq]
      exact hnext a env₁
  | error e env₁ =>
      rw [h] at hq
      rw [bind_of_error h, bind_of_error hq]
      rfl

theorem Recasts.map {p q : Parser α} {g g' : α → β} (hp : Recasts τ f p q)
    (hg : ∀ a, g' (f a) = f' (g a)) : Recasts τ f' (g <$> p) (g' <$> q) := by
  rw [map_eq_pure_bind, map_eq_pure_bind]
  exact hp.bind fun a => Recasts.pure (hg a)

theorem recasts_failAt (cause : Cause) (pos : Position) :
    Recasts τ f (failAt cause pos) (failAt cause (τ.place pos)) :=
  Recasts.throw rfl

theorem recasts_resolve (scope : Scope) {name : String} (h : τ.Spares name) :
    Recasts τ τ.slot (resolve scope name) (resolve scope name) := by
  intro env
  have hresolve := resolve_env h env scope.function?
  change EStateM.Result.ok ((τ.env env).resolve scope.function? name).1
    ((τ.env env).resolve scope.function? name).2 = _
  rw [hresolve]
  rfl

theorem recasts_mapM_resolve (scope : Scope) {names : List String}
    (h : ∀ name ∈ names, τ.Spares name) :
    Recasts τ (List.map τ.slot) (names.mapM (resolve scope)) (names.mapM (resolve scope)) := by
  induction names with
  | nil => exact Recasts.pure rfl
  | cons name names ih =>
      obtain ⟨hname, hnames⟩ := List.forall_mem_cons.1 h
      rw [List.mapM_cons]
      exact (recasts_resolve scope hname).bind fun slot =>
        (ih hnames).bind fun slots => Recasts.pure rfl

theorem get_eq_ok (env : Environment) : (get : Parser Environment) env = .ok env env := rfl

/-- The function of a name has the same index. -/
theorem recasts_functionIndex? (name : String) {found : Nat → Parser α}
    {missing missing' : Parser α} (hfound : ∀ i, Recasts τ f (found i) (found i))
    (hmissing : Recasts τ f missing missing') :
    Recasts τ f
      (do match (← get).functionIndex? name with
        | some i => found i
        | none => missing)
      (do match (← get).functionIndex? name with
        | some i => found i
        | none => missing') := by
  intro env
  rw [bind_of_ok (get_eq_ok env), bind_of_ok (get_eq_ok (τ.env env)), functionIndex?_env]
  cases env.functionIndex? name with
  | some i => exact hfound i env
  | none => exact hmissing env

theorem recasts_callee (name : String) (pos : Position) :
    Recasts τ id (callee name pos) (callee name (τ.place pos)) :=
  recasts_functionIndex? name (fun _ => Recasts.pure rfl) (recasts_failAt _ pos)

theorem recasts_implemented (name : String) (pos : Position) :
    Recasts τ id (implemented name pos) (implemented name (τ.place pos)) :=
  recasts_functionIndex? name (fun _ => Recasts.pure rfl) (recasts_failAt _ pos)

theorem recasts_define (name : String) (pos : Position) (params : List Param) :
    Recasts τ id (define name pos params) (define name (τ.place pos) params) := by
  intro env
  rw [define, define, bind_of_ok (get_eq_ok env), bind_of_ok (get_eq_ok (τ.env env)), define_env]
  cases env.define name params <;> rfl

theorem recasts_implement (function : Nat) (body : List Stmt) :
    Recasts τ id
      (modify (·.modifyFunction function ({ · with body := .script body })))
      (modify (·.modifyFunction function ({ · with body := .script (τ.block body) }))) := by
  intro env
  refine congrArg (EStateM.Result.ok ()) ?_
  exact modifyFunction_env env function fun _ => rfl

/-! ### Expressions -/

theorem recasts_simpleArgument {scope : Scope} {part : List Token} (hpart : τ.Fresh part)
    {simple : Parser Argument} (h : simpleArgument scope part = some simple) :
    simpleArgument scope (part.map τ.token) = some simple ∧
      Recasts τ τ.argument simple simple := by
  unfold simpleArgument at h
  split at h
  · rename_i word pos length
    cases h
    exact ⟨rfl, (recasts_resolve scope (hpart _ List.mem_cons_self word rfl)).map fun _ => rfl⟩
  · rename_i t hname
    obtain ⟨v, hv, rfl⟩ := Option.map_eq_some_iff.1 h
    refine ⟨?_, Recasts.pure rfl⟩
    obtain ⟨lexeme, pos, length⟩ := t
    cases lexeme <;> first | cases hv; rfl | cases hv
  · cases h

theorem simpleArgument_map_none {scope : Scope} {part : List Token}
    (h : simpleArgument scope part = none) : simpleArgument scope (part.map τ.token) = none := by
  match part with
  | [] => rfl
  | [⟨lexeme, pos, length⟩] => cases lexeme <;> exact h
  | ⟨lexeme, pos, length⟩ :: _ :: _ => cases lexeme <;> rfl

theorem recasts_terms_elements_arguments (τ : Recast) (scope : Scope) :
    (∀ operand ts, τ.Fresh ts →
        Recasts τ τ.terms (terms scope operand ts) (terms scope operand (ts.map τ.token))) ∧
      (∀ parts, (∀ part ∈ parts, τ.Fresh part) →
        Recasts τ τ.items (elements scope parts) (elements scope (parts.map (·.map τ.token)))) ∧
      ∀ parts, (∀ part ∈ parts, τ.Fresh part) →
        Recasts τ τ.arguments (arguments scope parts)
          (arguments scope (parts.map (·.map τ.token))) := by
  apply terms.mutual_induct scope
  case case1 =>
    intro operand _
    rw [List.map_nil, terms_nil]
    exact Recasts.pure rfl
  case case2 =>
    intro operand t ts v hv ih hts
    rw [List.map_cons, terms_literal hv, terms_literal (t := τ.token t) hv]
    exact (ih hts.tail).bind fun rest => Recasts.pure rfl
  case case3 =>
    intro operand t ts _ o ho v rest hs ih hts
    rw [List.map_cons, terms_op ho, terms_op (t := τ.token t) ho, signed?_map, hs]
    exact (ih (hts.tail.signed? hs)).bind fun rest => Recasts.pure rfl
  case case4 =>
    intro operand t ts _ o ho hs ih hts
    rw [List.map_cons, terms_op ho, terms_op (t := τ.token t) ho, signed?_map, hs]
    exact (ih hts.tail).bind fun rest => Recasts.pure rfl
  case case5 =>
    intro operand t ts _ word hw paren after hp ihargs ihrest hts
    rw [List.map_cons, terms_name hw, terms_name (t := τ.token t) hw, lexeme_token,
      callParen?_map, hp]
    refine (recasts_callee word t.pos).bind fun function => ?_
    dsimp only
    rw [group?_map]
    cases hg : Bracket.paren.group? 0 after with
    | none => exact recasts_failAt _ _
    | some g =>
        rw [Extent.callParen?_eq hp] at hts
        obtain ⟨hinner, hrest⟩ := hts.tail.tail.group hg
        dsimp only [Option.map_some, group]
        rw [splitCommas_map]
        exact (ihargs g hg (hinner.splitCommas 0)).bind fun args =>
          (ihrest g hg hrest).bind fun rest => Recasts.pure rfl
  case case6 =>
    intro operand t ts _ word hw hp ih hts
    rw [List.map_cons, terms_name hw, terms_name (t := τ.token t) hw, lexeme_token,
      callParen?_map, hp]
    exact (recasts_resolve scope (hts t List.mem_cons_self word hw)).bind fun slot =>
      (ih hts.tail).bind fun rest => Recasts.pure rfl
  case case7 =>
    intro t ts _ hb hg _
    rw [List.map_cons, terms_openBrace hb, terms_openBrace (t := τ.token t) hb, group?_map, hg]
    exact recasts_failAt _ _
  case case8 =>
    intro t ts _ hb g hg ihitems ihrest hts
    obtain ⟨hinner, hrest⟩ := hts.tail.group hg
    rw [List.map_cons, terms_openBrace hb, terms_openBrace (t := τ.token t) hb, group?_map, hg]
    dsimp only [Option.map_some, group]
    rw [splitCommas_map]
    exact (ihitems (hinner.splitCommas 0)).bind fun items =>
      (ihrest hrest).bind fun rest => Recasts.pure rfl
  case case9 =>
    intro operand t ts _ hb hoperand _
    rw [List.map_cons, terms_openBrace hb, terms_openBrace (t := τ.token t) hb, if_neg hoperand,
      if_neg hoperand]
    exact recasts_failAt _ _
  case case10 =>
    intro operand t ts _ hp ih hts
    rw [List.map_cons, terms_openParen hp, terms_openParen (t := τ.token t) hp]
    exact (ih hts.tail).bind fun rest => Recasts.pure rfl
  case case11 =>
    intro operand t ts _ hp ih hts
    rw [List.map_cons, terms_closeParen hp, terms_closeParen (t := τ.token t) hp]
    exact (ih hts.tail).bind fun rest => Recasts.pure rfl
  case case12 =>
    intro operand t ts hliteral hop hname hbrace hopen hclose _
    rw [List.map_cons, terms_other hliteral hop hname hbrace hopen hclose,
      terms_other (t := τ.token t) hliteral hop hname hbrace hopen hclose]
    exact recasts_failAt _ _
  case case13 =>
    intro _
    rw [List.map_nil, elements_nil]
    exact Recasts.pure rfl
  case case14 =>
    intro parts ih hparts
    rw [List.map_cons, List.map_nil, elements_skip, elements_skip]
    exact ih (List.forall_mem_cons.1 hparts).2
  case case15 =>
    intro t ts parts ihitem ihrest hparts
    obtain ⟨hpart, hparts⟩ := List.forall_mem_cons.1 hparts
    rw [List.map_cons, List.map_cons, elements_cons, elements_cons]
    exact (ihitem hpart).bind fun item => (ihrest hparts).bind fun rest => Recasts.pure rfl
  case case16 =>
    intro _
    rw [List.map_nil, arguments_nil]
    exact Recasts.pure rfl
  case case17 =>
    intro parts ih hparts
    rw [List.map_cons, List.map_nil, arguments_skip, arguments_skip]
    exact ih (List.forall_mem_cons.1 hparts).2
  case case18 =>
    intro t ts parts simple hsimple ih hparts
    obtain ⟨hpart, hparts⟩ := List.forall_mem_cons.1 hparts
    obtain ⟨hsimple', hrecasts⟩ := recasts_simpleArgument hpart hsimple
    rw [List.map_cons, List.map_cons, arguments_simple parts hsimple, arguments_simple _ hsimple']
    exact hrecasts.bind fun arg => (ih hparts).bind fun rest => Recasts.pure rfl
  case case19 =>
    intro t ts parts hsimple ih ihterms hparts
    obtain ⟨hpart, hparts⟩ := List.forall_mem_cons.1 hparts
    rw [List.map_cons, List.map_cons, arguments_expr parts hsimple,
      arguments_expr _ (simpleArgument_map_none hsimple)]
    refine Recasts.bind ((ihterms hpart).map fun made => ?_) fun arg =>
      (ih hparts).bind fun rest => Recasts.pure rfl
    rfl

theorem recasts_expression (scope : Scope) (hne : ts ≠ []) (hts : τ.Fresh ts) :
    Recasts τ τ.expr (expression scope ts) (expression scope (ts.map τ.token)) := by
  cases ts with
  | nil => exact absurd rfl hne
  | cons t ts =>
      have hterms := (recasts_terms_elements_arguments τ scope).1 true (t :: ts) hts
      exact hterms.bind fun made => Recasts.pure rfl

/-! ### Statements -/

theorem fresh_inside {after : Token} {x : Extent} (hts : τ.Fresh ts)
    (hx : takeExpression after ts = .ok x) : τ.Fresh x.inside ∧ τ.Fresh x.rest :=
  (takeExpression_subset hx).imp hts.of_subset hts.of_subset

theorem fresh_takeBlock {last : Position} {g : Group} (hts : τ.Fresh ts)
    (hb : takeBlock last ts = .ok g) : τ.Fresh g.inner ∧ τ.Fresh g.rest :=
  (takeBlock_subset hb).imp hts.of_subset hts.of_subset

/-- A statement with a head and a body, followed by the rest of the block. -/
theorem recasts_headed_stmt {make make' : Expr → List Stmt → Stmt} {scope inner : Scope}
    {after : Token} {last : Position} (hts : τ.Fresh ts)
    (hmake : ∀ head body, make' (τ.expr head) (τ.block body) = τ.stmt (make head body))
    (hbody : ∀ h : Headed, h.body.length < ts.length ∧ h.rest.length < ts.length →
      τ.Fresh h.body →
        Recasts τ τ.block (block inner h.body) (block inner (h.body.map τ.token)))
    (hrest : ∀ h : Headed, h.body.length < ts.length ∧ h.rest.length < ts.length →
      τ.Fresh h.rest →
        Recasts τ τ.block (block scope h.rest) (block scope (h.rest.map τ.token))) :
    Recasts τ τ.block
      (do
        let h ← headed scope after last ts
        let body ← block inner h.1.body
        let rest ← block scope h.1.rest
        return make h.1.head body :: rest)
      (do
        let h ← headed scope (τ.token after) (τ.place last) (ts.map τ.token)
        let body ← block inner h.1.body
        let rest ← block scope h.1.rest
        return make' h.1.head body :: rest) := by
  let next (make : Expr → List Stmt → Stmt) : Headed → Parser (List Stmt) := fun h => do
    let body ← block inner h.body
    let rest ← block scope h.rest
    return make h.head body :: rest
  change Recasts _ _ (headed scope after last ts >>= fun h => next make h.1)
    (headed scope (τ.token after) (τ.place last) (ts.map τ.token) >>= fun h => next make' h.1)
  rw [headed_bind, headed_bind, takeExpression_map]
  cases hx : takeExpression after ts with
  | error e => exact Recasts.throw rfl
  | ok x =>
      obtain ⟨hinside, hafter⟩ := fresh_inside hts hx
      dsimp only [except]
      refine (recasts_expression scope (takeExpression_append hx).2 hinside).bind fun head => ?_
      dsimp only [extent]
      rw [takeBlock_map last]
      cases hb : takeBlock last x.rest with
      | error e => exact Recasts.throw rfl
      | ok g =>
          obtain ⟨hinner, hremaining⟩ := fresh_takeBlock hafter hb
          have hlen : g.inner.length < ts.length ∧ g.rest.length < ts.length := by
            have hx := takeExpression_length hx
            have hb := takeBlock_length hb
            omega
          refine (hbody ⟨head, g.inner, g.rest⟩ hlen hinner).bind fun body =>
            (hrest ⟨head, g.inner, g.rest⟩ hlen hremaining).bind fun rest => Recasts.pure ?_
          exact congrArg (· :: τ.block rest) (hmake head body)

theorem recasts_block (scope : Scope) (hts : τ.Fresh ts) :
    Recasts τ τ.block (block scope ts) (block scope (ts.map τ.token)) := by
  induction scope, ts using block.induct with
  | case1 scope =>
      rw [List.map_nil, block_nil]
      exact Recasts.pure rfl
  | case2 scope t ts hs e hx =>
      have hx' : takeExpression (τ.token t) ((t :: ts).map τ.token) = _ :=
        takeExpression_map t (t :: ts)
      rw [hx, List.map_cons] at hx'
      rw [List.map_cons, block_expression hs, block_expression (t := τ.token t) hs, hx, hx']
      exact Recasts.throw rfl
  | case3 scope t ts hs x hx ih =>
      obtain ⟨hinside, hafter⟩ := fresh_inside hts hx
      have hx' : takeExpression (τ.token t) ((t :: ts).map τ.token) = _ :=
        takeExpression_map t (t :: ts)
      rw [hx, List.map_cons] at hx'
      rw [List.map_cons, block_expression hs, block_expression (t := τ.token t) hs, hx, hx']
      exact (recasts_expression scope (takeExpression_append hx).2 hinside).bind fun e =>
        (ih hafter).bind fun rest => Recasts.pure rfl
  | case4 scope t ts _ ht ih =>
      rw [List.map_cons, block_semicolon ht, block_semicolon (t := τ.token t) ht]
      exact ih hts.tail
  | case5 scope t ts _ ht ih =>
      rw [List.map_cons, block_comma ht, block_comma (t := τ.token t) ht]
      exact ih hts.tail
  | case6 scope t ts _ ht e hn =>
      rw [List.map_cons, block_def ht, block_def (t := τ.token t) ht, expectName_map, hn]
      exact Recasts.throw rfl
  | case7 scope t ts last _ ht name pos after hn e hp =>
      rw [List.map_cons, block_def ht, block_def (t := τ.token t) ht, expectName_map, hn]
      dsimp only [except]
      rw [pos_getLastD, parameters_map, hp]
      exact Recasts.throw rfl
  | case8 scope t ts last _ ht name pos after hn params rest hp ih =>
      obtain ⟨target, rfl, _⟩ := expectName_eq hn
      have hrest := hts.tail.tail.of_subset (parameters_suffix hp).subset
      rw [List.map_cons, block_def ht, block_def (t := τ.token t) ht, expectName_map, hn]
      dsimp only [except]
      rw [pos_getLastD, parameters_map, hp]
      exact (recasts_define name pos params).bind fun _ => ih hrest
  | case9 scope t ts _ ht e hn =>
      rw [List.map_cons, block_imp ht, block_imp (t := τ.token t) ht, expectName_map, hn]
      exact Recasts.throw rfl
  | case10 scope t ts last _ ht name pos after hn ihbody ihrest =>
      obtain ⟨target, rfl, _⟩ := expectName_eq hn
      rw [List.map_cons, block_imp ht, block_imp (t := τ.token t) ht, expectName_map, hn]
      refine (recasts_implemented name pos).bind fun function => ?_
      dsimp only [id]
      rw [pos_getLastD, takeBlock_map]
      cases hb : takeBlock last after with
      | error e => exact Recasts.throw rfl
      | ok g =>
          obtain ⟨hinner, hrest⟩ := fresh_takeBlock hts.tail.tail hb
          refine (ihbody function g hb hinner).bind fun body => ?_
          exact (recasts_implement function body).bind fun _ => ihrest g hb hrest
  | case11 scope t ts _ ht ihbody ihrest =>
      rw [List.map_cons, block_if ht, block_if (t := τ.token t) ht, pos_getLastD]
      exact recasts_headed_stmt hts.tail (fun _ _ => rfl) ihbody ihrest
  | case12 scope t ts _ ht ihbody ihrest =>
      rw [List.map_cons, block_while ht, block_while (t := τ.token t) ht, pos_getLastD]
      exact recasts_headed_stmt hts.tail (fun _ _ => rfl) ihbody ihrest
  | case13 scope t ts last _ ht e hv =>
      rw [List.map_cons, block_for ht, block_for (t := τ.token t) ht, pos_getLastD,
        loopVariables_map, hv]
      exact Recasts.throw rfl
  | case14 scope t ts last _ ht names after hv ihbody ihrest =>
      have hafter := hts.tail.of_subset (loopVariables_suffix hv).subset
      rw [List.map_cons, block_for ht, block_for (t := τ.token t) ht, pos_getLastD,
        loopVariables_map, hv]
      refine (recasts_mapM_resolve scope (hts.tail.loopVariables hv)).bind fun vars => ?_
      dsimp only
      rw [List.isEmpty_map]
      split
      · exact fun env => rfl
      · exact recasts_headed_stmt hafter (fun _ _ => rfl) ihbody ihrest
  | case15 scope t ts _ ht ih =>
      rw [List.map_cons, block_return ht, block_return (t := τ.token t) ht]
      exact (ih hts.tail).bind fun rest => Recasts.pure rfl
  | case16 scope t ts _ ht ih =>
      rw [List.map_cons, block_break ht, block_break (t := τ.token t) ht]
      exact (ih hts.tail).bind fun rest => Recasts.pure rfl
  | case17 scope t ts _ ht ih =>
      rw [List.map_cons, block_continue ht, block_continue (t := τ.token t) ht]
      exact (ih hts.tail).bind fun rest => Recasts.pure rfl
  | case18 scope t ts last _ ht e hb =>
      have hb' : takeBlock (τ.place last) ((t :: ts).map τ.token) = _ :=
        takeBlock_map last (t :: ts)
      rw [hb, List.map_cons] at hb'
      rw [List.map_cons, block_openBrace ht, block_openBrace (t := τ.token t) ht, pos_getLastD,
        hb, hb']
      exact Recasts.throw rfl
  | case19 scope t ts last _ ht g hb ihinner ihrest =>
      obtain ⟨hinner, hrest⟩ := fresh_takeBlock hts hb
      have hb' : takeBlock (τ.place last) ((t :: ts).map τ.token) = _ :=
        takeBlock_map last (t :: ts)
      rw [hb, List.map_cons] at hb'
      rw [List.map_cons, block_openBrace ht, block_openBrace (t := τ.token t) ht, pos_getLastD,
        hb, hb']
      refine (ihinner hinner).bind fun inner => (ihrest hrest).bind fun rest => Recasts.pure ?_
      exact (block_append τ inner rest).symm
  | case20 scope t ts hstart h1 h2 h3 h4 h5 h6 h7 h8 h9 h10 h11 =>
      rw [List.map_cons, block_other hstart h1 h2 h3 h4 h5 h6 h7 h8 h9 h10 h11,
        block_other (t := τ.token t) hstart h1 h2 h3 h4 h5 h6 h7 h8 h9 h10 h11]
      exact recasts_failAt _ _

end Parser

end Scriptlet
