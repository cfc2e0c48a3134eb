import Scriptlet.Proofs.Expression.Parentheses
import Scriptlet.Proofs.Parsing.Balance

/-!
# Commas inside of an expression

The elements of an array literal are found by dividing its tokens at the commas outside of
brackets, before anything is known of the expressions between them. `Undivided` says that
dividing passes over the tokens. The main statement is `Parser.undivided_of_expression`: it
does so for an expression whose parentheses are in pairs, because then every comma of the
expression stands between the parentheses of a call or the braces of an array.
-/

namespace Scriptlet

section Dividing

variable {t : Token} {ts us more : List Token} {depth low : Int} {closed : Nat}

theorem splitCommas_comma (ht : t.lexeme = .comma) :
    splitCommas 0 (t :: ts) = [] :: splitCommas 0 ts := by
  rw [splitCommas, ht]
  rfl

theorem splitCommas_other (h : ¬(t.lexeme = .comma ∧ depth = 0)) :
    splitCommas depth (t :: ts) =
      consPart t (splitCommas (t.lexeme.depthAfter depth) ts) := by
  rw [splitCommas, if_neg]
  intro hcut
  obtain ⟨hcomma, hdepth⟩ := Bool.and_eq_true_iff.1 hcut
  exact h ⟨Lexeme.eq_comma hcomma, by simpa using hdepth⟩

theorem splitCommas_head_isPrefix {first : List Token} {others : List (List Token)}
    (h : splitCommas depth ts = first :: others) : ∃ rest, ts = first ++ rest := by
  induction ts generalizing depth first others with
  | nil =>
      cases h
      exact ⟨[], rfl⟩
  | cons t ts ih =>
      unfold splitCommas at h
      split at h
      · cases h
        exact ⟨t :: ts, rfl⟩
      · obtain ⟨part, parts, hpart⟩ :=
          List.exists_cons_of_ne_nil (splitCommas_ne_nil (t.lexeme.depthAfter depth) ts)
        rw [hpart] at h
        cases h
        obtain ⟨rest, hrest⟩ := ih hpart
        exact ⟨rest, congrArg (t :: ·) hrest⟩

theorem foldr_consPart (ts part : List Token) (parts : List (List Token)) :
    ts.foldr consPart (part :: parts) = (ts ++ part) :: parts := by
  induction ts with
  | nil => rfl
  | cons t ts ih => rw [List.foldr_cons, ih, consPart, List.cons_append]

/-- Whether dividing at commas passes over the tokens, when they close `closed` more brackets
than they open and stand at the depth `low` or further in. -/
def Undivided (low : Int) (closed : Nat) (ts : List Token) : Prop :=
  ∀ depth, low ≤ depth → ∀ more,
    splitCommas (depth + closed) (ts ++ more) = ts.foldr consPart (splitCommas depth more)

theorem Undivided.splitCommas_append (h : Undivided 0 0 ts) (more : List Token) :
    splitCommas 0 (ts ++ more) = ts.foldr consPart (splitCommas 0 more) :=
  h 0 (Int.le_refl 0) more

theorem undivided_nil : Undivided low 0 [] := by
  intro depth _ more
  simp

theorem Undivided.append (hts : Undivided low 0 ts) (hus : Undivided low closed us) :
    Undivided low closed (ts ++ us) := by
  intro depth hdepth more
  have hfirst := hts (depth + closed) (by omega) (us ++ more)
  rw [Int.natCast_zero, Int.add_zero] at hfirst
  rw [List.append_assoc, hfirst, hus depth hdepth, List.foldr_append]

theorem Undivided.inside (hts : Undivided 0 closed ts) : Undivided 1 closed ts :=
  fun depth hdepth => hts depth (by omega)

/-- Any token but a comma or a bracket may stand in front. -/
theorem Undivided.cons {l : Lexeme} (hts : Undivided low closed ts) (ht : t.lexeme = l)
    (hcomma : l ≠ .comma) (hdepth : ∀ depth, l.depthAfter depth = depth) :
    Undivided low closed (t :: ts) := by
  subst ht
  intro depth hlow more
  rw [List.cons_append, splitCommas_other fun h => hcomma h.1, hdepth, hts depth hlow,
    List.foldr_cons]

theorem Undivided.opening (hts : Undivided 0 (closed + 1) ts)
    (ht : t.lexeme = .openParen ∨ t.lexeme = .openBrace) : Undivided 0 closed (t :: ts) := by
  intro depth hlow more
  have hcomma : t.lexeme ≠ .comma := by
    rcases ht with ht | ht <;> simp [ht]
  have hdepth : t.lexeme.depthAfter (depth + closed) = depth + (closed + 1 : Nat) := by
    rcases ht with ht | ht <;> rw [ht, Lexeme.depthAfter] <;> omega
  rw [List.cons_append, splitCommas_other fun h => hcomma h.1, hdepth, hts depth hlow,
    List.foldr_cons]

theorem Undivided.closing (hts : Undivided low closed ts)
    (ht : t.lexeme = .closeParen ∨ t.lexeme = .closeBrace) :
    Undivided low (closed + 1) (t :: ts) := by
  intro depth hlow more
  have hcomma : t.lexeme ≠ .comma := by
    rcases ht with ht | ht <;> simp [ht]
  have hdepth : t.lexeme.depthAfter (depth + (closed + 1 : Nat)) = depth + closed := by
    rcases ht with ht | ht <;> rw [ht, Lexeme.depthAfter] <;> omega
  rw [List.cons_append, splitCommas_other fun h => hcomma h.1, hdepth, hts depth hlow,
    List.foldr_cons]

/-- A comma divides nothing inside of brackets. -/
theorem undivided_comma (ht : t.lexeme = .comma) : Undivided 1 0 [t] := by
  intro depth hlow more
  rw [Int.natCast_zero, Int.add_zero, List.singleton_append,
    splitCommas_other fun h => by omega, ht]
  rfl

theorem undivided_of_splitCommas (h : ∀ part ∈ splitCommas 0 ts, Undivided 0 0 part) :
    Undivided 1 0 ts :=
  of_splitCommas (fun _ _ => Undivided.append) (fun _ => undivided_comma)
    fun part hpart => (h part hpart).inside

/-- Brackets with what may stand inside of them. -/
theorem Undivided.bracket {inner : List Token} {opening closing : Token}
    (hinner : Undivided 1 0 inner)
    (hopening : opening.lexeme = .openParen ∨ opening.lexeme = .openBrace)
    (hclosing : closing.lexeme = .closeParen ∨ closing.lexeme = .closeBrace)
    (hts : Undivided 0 closed ts) : Undivided 0 closed (opening :: (inner ++ closing :: ts)) := by
  refine Undivided.opening ?_ hopening
  intro depth hlow more
  have hrest := (hts.closing hclosing) depth hlow more
  have hfirst := hinner (depth + (closed + 1 : Nat)) (by omega) (closing :: ts ++ more)
  rw [Int.natCast_zero, Int.add_zero] at hfirst
  rw [List.append_assoc, hfirst, hrest, List.foldr_append]

end Dividing

theorem undivided_group {t : Token} {ts : List Token} {g : Group} (ht : t.lexeme = .openBrace)
    (h : Bracket.brace.group? 0 ts = some g) (hinner : Undivided 1 0 g.inner) :
    Undivided 0 0 (t :: (g.inner ++ [g.close])) :=
  hinner.bracket (.inr ht) (.inr (Bracket.group?_closeBrace h)) undivided_nil

namespace Parser

theorem undivided_literal {t : Token} {ts : List Token} {v : Value} {low : Int} {closed : Nat}
    (h : literal? t.lexeme = some v) (hts : Undivided low closed ts) :
    Undivided low closed (t :: ts) := by
  refine hts.cons rfl ?_ ?_
  · intro hcomma
    rw [hcomma] at h
    cases h
  · revert h
    cases t.lexeme <;> simp [literal?, Lexeme.depthAfter]

theorem undivided_signed? {o : Operator} {operand : Bool} {ts rest : List Token} {v : Value}
    {low : Int} {closed : Nat} (h : signed? o operand ts = some (v, rest))
    (hrest : Undivided low closed rest) : Undivided low closed ts := by
  unfold signed? at h
  split at h
  · unfold negated? at h
    split at h
    · cases h
      exact hrest.cons rfl (by simp) fun _ => rfl
    · cases h
      exact hrest.cons rfl (by simp) fun _ => rfl
    · cases h
  · cases h

theorem undivided_simpleArgument {scope : Scope} {part : List Token} {simple : Parser Argument}
    (h : simpleArgument scope part = some simple) : Undivided 0 0 part := by
  unfold simpleArgument at h
  split at h
  · exact undivided_nil.cons rfl (by simp) fun _ => rfl
  · obtain ⟨v, hv, _⟩ := Option.map_eq_some_iff.1 h
    exact undivided_literal hv undivided_nil
  · cases h

/-- Dividing passes over the tokens of terms, elements and arguments whose parentheses are in
pairs. -/
theorem undivided_terms_elements_arguments (scope : Scope) :
    (∀ operand ts, Yields (terms scope operand ts) fun made =>
        ∀ depth, termsClose depth made → Undivided 0 depth ts) ∧
      (∀ parts, Yields (elements scope parts) fun items =>
        itemsClose items → ∀ part ∈ parts, Undivided 0 0 part) ∧
      ∀ parts, Yields (arguments scope parts) fun args =>
        argumentsClose args → ∀ part ∈ parts, Undivided 0 0 part := by
  apply terms.mutual_induct scope
    (fun operand ts => Yields (terms scope operand ts) fun made =>
      ∀ depth, termsClose depth made → Undivided 0 depth ts)
    (fun parts => Yields (elements scope parts) fun items =>
      itemsClose items → ∀ part ∈ parts, Undivided 0 0 part)
    fun parts => Yields (arguments scope parts) fun args =>
      argumentsClose args → ∀ part ∈ parts, Undivided 0 0 part
  case case1 =>
    intro operand
    rw [terms_nil]
    refine Yields.pure fun depth hclose => ?_
    obtain rfl : depth = 0 := hclose
    exact undivided_nil
  case case2 =>
    intro operand t ts v hv ih
    rw [terms_literal hv]
    exact ih.bind fun rest hrest => Yields.pure fun depth hclose =>
      undivided_literal hv (hrest depth hclose)
  case case3 =>
    intro operand t ts _ o ho v rest hs ih
    rw [terms_op ho, hs]
    exact ih.bind fun made hmade => Yields.pure fun depth hclose =>
      (undivided_signed? hs (hmade depth hclose)).cons ho (by simp) fun _ => rfl
  case case4 =>
    intro operand t ts _ o ho hs ih
    rw [terms_op ho, hs]
    exact ih.bind fun rest hrest => Yields.pure fun depth hclose =>
      (hrest depth hclose).cons ho (by simp) fun _ => rfl
  case case5 =>
    intro operand t ts _ word hw paren after hp ihargs ihrest
    rw [terms_name hw, hp]
    refine (Yields.any _).bind fun function _ => ?_
    cases hg : Bracket.paren.group? 0 after with
    | none => exact Yields.throw _
    | some g =>
        refine (ihargs g hg).bind fun args hargs => (ihrest g hg).bind fun rest hrest =>
          Yields.pure fun depth hclose => ?_
        obtain ⟨hargsClose, hrestClose⟩ := hclose
        have hinner := undivided_of_splitCommas (hargs hargsClose)
        rw [Extent.callParen?_eq hp, Bracket.group?_append hg]
        have hcall := hinner.bracket (.inl (Extent.callParen?_lexeme hp))
          (.inl (Bracket.group?_closeParen hg)) (hrest depth hrestClose)
        exact hcall.cons hw (by simp) fun _ => rfl
  case case6 =>
    intro operand t ts _ word hw hp ih
    rw [terms_name hw, hp]
    refine (Yields.any _).bind fun slot _ => ih.bind fun rest hrest => ?_
    exact Yields.pure fun depth hclose => (hrest depth hclose).cons hw (by simp) fun _ => rfl
  case case7 =>
    intro t ts _ hb hg
    rw [terms_openBrace hb, hg]
    exact Yields.throw _
  case case8 =>
    intro t ts _ hb g hg ihitems ihrest
    rw [terms_openBrace hb, hg]
    refine ihitems.bind fun items hitems => ihrest.bind fun rest hrest =>
      Yields.pure fun depth hclose => ?_
    obtain ⟨hitemsClose, hrestClose⟩ := hclose
    have hinner := undivided_of_splitCommas (hitems hitemsClose)
    rw [Bracket.group?_append hg]
    exact hinner.bracket (.inr hb) (.inr (Bracket.group?_closeBrace hg)) (hrest depth hrestClose)
  case case9 =>
    intro operand t ts _ hb hoperand
    rw [terms_openBrace hb, if_neg hoperand]
    exact Yields.throw _
  case case10 =>
    intro operand t ts _ hp ih
    rw [terms_openParen hp]
    exact ih.bind fun rest hrest => Yields.pure fun depth hclose =>
      (hrest (depth + 1) hclose).opening (.inl hp)
  case case11 =>
    intro operand t ts _ hp ih
    rw [terms_closeParen hp]
    refine ih.bind fun rest hrest => Yields.pure fun depth hclose => ?_
    obtain ⟨below, rfl, hbelow⟩ := hclose
    exact (hrest below hbelow).closing (.inl hp)
  case case12 =>
    intro operand t ts hliteral hop hname hbrace hopen hclose
    rw [terms_other hliteral hop hname hbrace hopen hclose]
    exact Yields.throw _
  case case13 => exact Yields.of _ fun _ _ => List.forall_mem_nil _
  case case14 =>
    intro parts ih
    rw [elements_skip]
    exact ih.mono fun items hparts hclose =>
      List.forall_mem_cons.2 ⟨undivided_nil, hparts hclose⟩
  case case15 =>
    intro t ts parts ihitem ihrest
    rw [elements_cons]
    exact ihitem.bind fun item hitem => ihrest.bind fun rest hparts => Yields.pure fun hclose =>
      List.forall_mem_cons.2 ⟨hitem 0 hclose.1, hparts hclose.2⟩
  case case16 => exact Yields.of _ fun _ _ => List.forall_mem_nil _
  case case17 =>
    intro parts ih
    rw [arguments_skip]
    exact ih.mono fun args hparts hclose =>
      List.forall_mem_cons.2 ⟨undivided_nil, hparts hclose⟩
  case case18 =>
    intro t ts parts simple hsimple ih
    rw [arguments_simple parts hsimple]
    exact (Yields.any _).bind fun arg _ => ih.bind fun rest hparts => Yields.pure fun hclose =>
      List.forall_mem_cons.2
        ⟨undivided_simpleArgument hsimple, hparts (argumentsClose_of_cons hclose)⟩
  case case19 =>
    intro t ts parts hsimple ih ihterms
    rw [arguments_expr parts hsimple]
    have harg : Yields ((fun made => Argument.expr (.mk made t.pos)) <$>
        terms scope true (t :: ts)) fun arg => ∃ made, arg = .expr (.mk made t.pos) ∧
          (termsClose 0 made → Undivided 0 0 (t :: ts)) :=
      Yields.map _ (ihterms.mono fun made hmade => ⟨made, rfl, hmade 0⟩)
    refine harg.bind fun arg hmade => ih.bind fun rest hparts => Yields.pure fun hclose => ?_
    obtain ⟨made, rfl, hmade⟩ := hmade
    exact List.forall_mem_cons.2 ⟨hmade hclose.1, hparts hclose.2⟩

theorem undivided_of_expression {scope : Scope} {ts : List Token} {env env' : Environment}
    {e : Expr} (h : expression scope ts env = .ok e env') (he : e.Closes) :
    Undivided 0 0 ts := by
  cases ts with
  | nil => cases h
  | cons t ts =>
      have hterms := (undivided_terms_elements_arguments scope).1 true (t :: ts)
      have hyields : Yields (expression scope (t :: ts)) fun e =>
          e.Closes → Undivided 0 0 (t :: ts) :=
        hterms.bind fun made hmade => Yields.pure fun hclose => hmade 0 hclose
      exact hyields.of_ok h he

end Parser

end Scriptlet
