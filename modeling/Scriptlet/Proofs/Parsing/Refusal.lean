import Scriptlet.Proofs.Parsing.Locality

/-!
# Where an expression stops

The extent of an expression is cut before its terms are made. To make terms of more tokens
than that is an error of parsing, whatever the tokens are: `terms_past` says that the terms
are made up to the end of the extent and the next token is refused there. Whether an operand is
due at the start matters little (`terms_operand`): without one a brace is refused, and a
minus sign is an operator instead of a part of the number after it.
-/

namespace Scriptlet

variable {ts more : List Token}

namespace Extent

/-- An expression stops at a token that ends it or at a brace. -/
theorem find_stop {operand : Bool} {x : Extent} {stop : Token} {after : List Token}
    (h : find operand ts = .ok x) (hrest : x.rest = stop :: after) :
    ends stop.lexeme = true ∨ stop.lexeme = .openBrace := by
  fun_induction find operand ts generalizing x with
  | case1 =>
      cases h
      cases hrest
  | case2 operand t ts hends =>
      cases h
      cases hrest
      exact .inl hends
  | case3 operand t ts hends hopens hoperand =>
      cases h
      cases hrest
      exact .inr (Bracket.opens_brace_iff.1 hopens)
  | case4 => cases h
  | case5 operand t ts hends hopens hoperand g hg ih =>
      obtain ⟨x', hx, rfl⟩ := map_eq_ok h
      exact ih hx hrest
  | case6 => cases h
  | case7 operand t ts hends hopens paren after hp g hg ih =>
      obtain ⟨x', hx, rfl⟩ := map_eq_ok h
      exact ih hx hrest
  | case8 operand t ts hends hopens hp ih =>
      obtain ⟨x', hx, rfl⟩ := map_eq_ok h
      exact ih hx hrest

theorem callParen?_none_of_append {l : Lexeme} (h : callParen? l (ts ++ more) = none) :
    callParen? l ts = none := by
  cases hts : callParen? l ts with
  | none => rfl
  | some found =>
      rw [callParen?_followed hts] at h
      cases h

/-- Only a name is called. -/
theorem callParen?_name {l : Lexeme} {paren : Token} {after : List Token}
    (h : callParen? l ts = some (paren, after)) :
    ∃ word, l = .name word ∧ ∀ tail, callParen? l (paren :: tail) = some (paren, tail) := by
  unfold callParen? at h
  split at h
  · cases h
    exact ⟨_, rfl, fun _ => rfl⟩
  · cases h

/-- An operand that is due makes a difference to a brace only. -/
theorem find_operand {t : Token} (ht : t.lexeme ≠ .openBrace) (operand : Bool) :
    find operand (t :: ts) = find true (t :: ts) := by
  have hopens : ¬Bracket.brace.opens t.lexeme = true := mt Bracket.opens_brace_iff.1 ht
  rw [find_cons, find_cons, if_neg hopens, if_neg hopens]

end Extent

theorem takeExpression_find {after : Token} {x : Extent} (h : takeExpression after ts = .ok x) :
    Extent.find true ts = .ok x := by
  unfold takeExpression at h
  split at h
  · cases h
  · rename_i found hfind
    rw [hfind]
    split at h
    · cases h
    · split at h
      · exact h
      · split at h
        · cases h
        · exact h

theorem takeBlock_group {last : Position} {t : Token} {g : Group}
    (h : takeBlock last (t :: ts) = .ok g) : Bracket.brace.group? 0 ts = some g := by
  obtain ⟨opening, heq, _, hg⟩ := takeBlock_eq h
  cases heq
  simpa using Bracket.group?_followed hg g.rest

namespace Parser

variable {scope : Scope} {operand : Bool} {t : Token}

theorem negated?_followed {v : Value} {rest : List Token} (h : negated? ts = some (v, rest))
    (more : List Token) : negated? (ts ++ more) = some (v, rest ++ more) := by
  unfold negated? at h
  split at h
  · cases h
    rfl
  · cases h
    rfl
  · cases h

theorem signed?_followed {o : Operator} {v : Value} {rest : List Token}
    (h : signed? o operand ts = some (v, rest)) (more : List Token) :
    signed? o operand (ts ++ more) = some (v, rest ++ more) := by
  unfold signed? at h ⊢
  split at h
  · rename_i hminus
    rw [if_pos hminus, negated?_followed h]
  · cases h

theorem negated?_none_append (hmore : ∀ t ∈ more.head?, literal? t.lexeme = none)
    (h : negated? ts = none) : negated? (ts ++ more) = none := by
  cases ts with
  | nil =>
      rw [List.nil_append]
      unfold negated?
      split
      · cases hmore _ rfl
      · cases hmore _ rfl
      · rfl
  | cons t ts =>
      unfold negated? at h ⊢
      rw [List.cons_append]
      split at h
      · cases h
      · cases h
      · rename_i hint hfloat
        split
        · rename_i heq
          cases heq
          exact absurd rfl (hint _ _ _ _ _)
        · rename_i heq
          cases heq
          exact absurd rfl (hfloat _ _ _ _ _)
        · rfl

theorem signed?_false (o : Operator) (ts : List Token) : signed? o false ts = none := by
  simp [signed?]

theorem signed?_none_append {o : Operator}
    (hmore : ∀ t ∈ more.head?, literal? t.lexeme = none) (h : signed? o operand ts = none) :
    signed? o operand (ts ++ more) = none := by
  unfold signed? at h ⊢
  split
  · rename_i hminus
    rw [if_pos hminus] at h
    exact negated?_none_append hmore h
  · rfl

/-- A number after a minus sign is a literal by itself too. -/
theorem exists_literal_of_signed? {o : Operator} {v : Value} {rest : List Token}
    (h : signed? o operand ts = some (v, rest)) :
    ∃ t w, ts = t :: rest ∧ literal? t.lexeme = some w := by
  unfold signed? at h
  split at h
  · unfold negated? at h
    split at h
    · cases h
      exact ⟨_, _, rfl, rfl⟩
    · cases h
      exact ⟨_, _, rfl, rfl⟩
    · cases h
  · cases h

theorem exists_signed? {l : Lexeme} (h : ¬∀ o, l = .op o → signed? o operand ts = none) :
    ∃ o, l = .op o ∧ ∃ v rest, signed? o operand ts = some (v, rest) := by
  cases l with
  | op o =>
      cases hs : signed? o operand ts with
      | some found => exact ⟨o, rfl, found.1, found.2, hs⟩
      | none =>
          refine absurd ?_ h
          rintro o' ⟨⟩
          exact hs
  | _ => exact absurd (fun o ho => by cases ho) h

theorem terms_ends (h : Extent.ends t.lexeme = true) :
    terms scope operand (t :: ts) = failAt (.tokenInExpression t.lexeme) t.pos := by
  apply terms_other <;> revert h <;> cases t.lexeme <;> simp [Extent.ends, literal?]

/-- The term of a token that stands for itself: no bracket of an array or a call, and no sign of
a number. -/
def single (scope : Scope) (t : Token) : Parser Term :=
  match literal? t.lexeme with
  | some v => return .literal v
  | none =>
  match t.lexeme with
  | .op o => return .op o t.pos
  | .name word => .slot <$> resolve scope word
  | .openParen => return .openParen t.pos
  | .closeParen => return .closeParen t.pos
  | found => failAt (.tokenInExpression found) t.pos

theorem wantsOperand_of_literal? {v : Value} (h : literal? t.lexeme = some v) :
    Extent.wantsOperand t.lexeme = false := by
  revert h
  cases t.lexeme <;> simp [literal?, Extent.wantsOperand]

theorem terms_single (hbrace : t.lexeme ≠ .openBrace)
    (hcall : Extent.callParen? t.lexeme ts = none)
    (hsigned : ∀ o, t.lexeme = .op o → signed? o operand ts = none) :
    terms scope operand (t :: ts) = (do
      let made ← single scope t
      let rest ← terms scope (Extent.wantsOperand t.lexeme) ts
      return made :: rest) := by
  unfold single
  split
  · rename_i v hv
    rw [terms_literal hv, wantsOperand_of_literal? hv]
    rfl
  · rename_i hliteral
    split
    · rename_i o hl
      rw [terms_op hl, hsigned o hl, hl]
      rfl
    · rename_i word hl
      rw [terms_name hl, hcall, hl]
      rfl
    · rename_i hl
      rw [terms_openParen hl, hl]
      rfl
    · rename_i hl
      rw [terms_closeParen hl, hl]
      rfl
    · rename_i hop hname hopen hclose
      rw [terms_other hliteral hop hname hbrace hopen hclose]
      rfl

theorem terms_array {g : Group} (ht : t.lexeme = .openBrace)
    (hg : Bracket.brace.group? 0 ts = some g) (tail : List Token) :
    terms scope true (t :: (g.inner ++ g.close :: tail)) = (do
      let items ← elements scope (splitCommas 0 g.inner)
      let rest ← terms scope false tail
      return .array items :: rest) := by
  rw [terms_openBrace ht, if_pos rfl, Bracket.group?_continued hg]

theorem terms_call {word : String} {paren : Token} {g : Group} (ht : t.lexeme = .name word)
    (hcall : ∀ tail, Extent.callParen? t.lexeme (paren :: tail) = some (paren, tail))
    (hg : Bracket.paren.group? 0 ts = some g) (tail : List Token) :
    terms scope operand (t :: paren :: (g.inner ++ g.close :: tail)) = (do
      let function ← callee word t.pos
      let args ← arguments scope (splitCommas 0 g.inner)
      let rest ← terms scope false tail
      return .call function word args t.pos :: rest) := by
  rw [terms_name ht, hcall]
  dsimp only
  rw [Bracket.group?_continued hg]

/-- A sign only changes the number after it. -/
theorem terms_signed {o : Operator} {v : Value} {rest : List Token} (ht : t.lexeme = .op o)
    (h : signed? o operand ts = some (v, rest)) :
    terms scope operand (t :: ts) = (do
      let made ← terms scope true ts
      return .literal v :: made.tail) := by
  obtain ⟨number, w, rfl, hnumber⟩ := exists_literal_of_signed? h
  rw [terms_op ht, h, terms_literal hnumber]
  simp only [bind_assoc, pure_bind, List.tail_cons]

theorem stop_plain {l : Lexeme} (h : Extent.ends l = true ∨ l = .openBrace) :
    l ≠ .openParen ∧ literal? l = none := by
  rcases h with hends | rfl
  · revert hends
    cases l <;> simp [Extent.ends, literal?]
  · simp [literal?]

/-- A token that stands for itself, or a sign, in front of terms that end at `stop`. -/
theorem terms_past_cons {inside : List Token} {stop : Token} {cause : Cause}
    (hbrace : t.lexeme ≠ .openBrace) (hcall : Extent.callParen? t.lexeme inside = none)
    (hstop : stop.lexeme ≠ .openParen ∧ literal? stop.lexeme = none)
    (hpast : terms scope (Extent.wantsOperand t.lexeme) (inside ++ stop :: more) =
      (do let _ ← terms scope (Extent.wantsOperand t.lexeme) inside; failAt cause stop.pos)) :
    terms scope operand (t :: (inside ++ stop :: more)) =
      (do let _ ← terms scope operand (t :: inside); failAt cause stop.pos) := by
  by_cases hsigned : ∀ o, t.lexeme = .op o → signed? o operand inside = none
  · have hcall' : Extent.callParen? t.lexeme (inside ++ stop :: more) = none := by
      refine Extent.callParen?_none_append ?_ hcall
      rintro u ⟨⟩
      exact hstop.1
    have hsigned' (o : Operator) (ho : t.lexeme = .op o) :
        signed? o operand (inside ++ stop :: more) = none := by
      refine signed?_none_append ?_ (hsigned o ho)
      rintro u ⟨⟩
      exact hstop.2
    rw [terms_single hbrace hcall' hsigned', terms_single hbrace hcall hsigned, hpast]
    simp only [bind_assoc, pure_bind]
    rfl
  · obtain ⟨o, ho, v, rest, hs⟩ := exists_signed? hsigned
    have hoperand : Extent.wantsOperand t.lexeme = true := by rw [ho]; rfl
    rw [hoperand] at hpast
    rw [terms_signed ho (signed?_followed hs _), terms_signed ho hs, hpast]
    simp only [bind_assoc, pure_bind]
    rfl

/-- Terms are made up to the end of the extent, and the next token is refused. The induction
follows the cut, so that both agree on where an operand is due. -/
theorem terms_past (scope : Scope) {x : Extent} {stop : Token} {after : List Token}
    (hx : Extent.find operand ts = .ok x) (hrest : x.rest = stop :: after) (more : List Token) :
    ∃ cause : Cause, cause.kind = .parse ∧
      terms scope operand (x.inside ++ stop :: more) =
        (do let _ ← terms scope operand x.inside; failAt cause stop.pos) := by
  fun_induction Extent.find operand ts generalizing x with
  | case1 =>
      cases hx
      cases hrest
  | case2 operand t ts hends =>
      cases hx
      cases hrest
      refine ⟨.tokenInExpression stop.lexeme, rfl, ?_⟩
      rw [List.nil_append, terms_ends hends, terms_nil]
      rfl
  | case3 operand t ts hends hopens hoperand =>
      cases hx
      cases hrest
      refine ⟨.braceInExpression, rfl, ?_⟩
      rw [List.nil_append, terms_openBrace (Bracket.opens_brace_iff.1 hopens), terms_nil,
        if_neg (by simpa using hoperand)]
      rfl
  | case4 => cases hx
  | case5 operand t ts hends hopens hoperand g hg ih =>
      obtain ⟨x', hx', rfl⟩ := Extent.map_eq_ok hx
      obtain ⟨cause, hcause, hpast⟩ := ih hx' hrest
      obtain rfl : operand = true := by simpa using hoperand
      have hbrace := Bracket.opens_brace_iff.1 hopens
      refine ⟨cause, hcause, ?_⟩
      simp only [Extent.prepend, List.cons_append, List.append_assoc, List.nil_append]
      rw [terms_array hbrace hg, terms_array hbrace hg, hpast]
      simp only [bind_assoc, pure_bind]
      rfl
  | case6 => cases hx
  | case7 operand t ts hends hopens paren after' hp g hg ih =>
      obtain ⟨x', hx', rfl⟩ := Extent.map_eq_ok hx
      obtain ⟨cause, hcause, hpast⟩ := ih hx' hrest
      obtain ⟨word, hw, hcall⟩ := Extent.callParen?_name hp
      refine ⟨cause, hcause, ?_⟩
      simp only [Extent.prepend, List.cons_append, List.append_assoc, List.nil_append]
      rw [terms_call hw hcall hg, terms_call hw hcall hg, hpast]
      simp only [bind_assoc, pure_bind]
      rfl
  | case8 operand t ts hends hopens hp ih =>
      obtain ⟨x', hx', rfl⟩ := Extent.map_eq_ok hx
      obtain ⟨cause, hcause, hpast⟩ := ih hx' hrest
      have hbrace : t.lexeme ≠ .openBrace := mt Bracket.opens_brace_iff.2 hopens
      have hcall : Extent.callParen? t.lexeme x'.inside = none := by
        rw [← Extent.append_find _ _ _ hx'] at hp
        exact Extent.callParen?_none_of_append hp
      have hstop := stop_plain (Extent.find_stop hx' hrest)
      refine ⟨cause, hcause, ?_⟩
      rw [Extent.prepend, List.singleton_append, List.cons_append]
      exact terms_past_cons hbrace hcall hstop hpast

/-- Any token but a brace makes terms of the same tokens, be an operand due or not. -/
theorem terms_operand (scope : Scope) (ts : List Token) (hbrace : t.lexeme ≠ .openBrace) :
    ∃ (p : Parser (List Term)) (f g : List Term → List Term),
      terms scope true (t :: ts) = (do let made ← p; return f made) ∧
        terms scope false (t :: ts) = (do let made ← p; return g made) := by
  by_cases hsigned : ∀ o, t.lexeme = .op o → signed? o true ts = none
  · have hsame : terms scope false (t :: ts) = terms scope true (t :: ts) := by
      cases hcall : Extent.callParen? t.lexeme ts with
      | none =>
          rw [terms_single hbrace hcall hsigned,
            terms_single hbrace hcall fun o _ => signed?_false o ts]
      | some found =>
          obtain ⟨word, hw, _⟩ := Extent.callParen?_name hcall
          rw [terms_name hw, terms_name hw]
    exact ⟨terms scope true (t :: ts), id, id, (bind_pure _).symm,
      hsame.trans (bind_pure _).symm⟩
  · obtain ⟨o, ho, v, rest, hs⟩ := exists_signed? hsigned
    refine ⟨terms scope true ts, fun made => .literal v :: made.tail,
      fun made => .op o t.pos :: made, terms_signed ho hs, ?_⟩
    rw [terms_op ho, signed?_false]

/-- No token goes without a term. -/
theorem terms_ne_nil (scope : Scope) (operand : Bool) (t : Token) (ts : List Token) :
    Yields (terms scope operand (t :: ts)) (· ≠ []) := by
  have hcons {made : Term} (p : Parser (List Term)) :
      Yields (do let rest ← p; return made :: rest) (· ≠ []) :=
    (Yields.any p).bind fun rest _ => Yields.pure (by simp)
  by_cases hbrace : t.lexeme = .openBrace
  · rw [terms_openBrace hbrace]
    split
    · split
      · exact Yields.throw _
      · exact (Yields.any _).bind fun items _ => hcons _
    · exact Yields.throw _
  by_cases hsigned : ∀ o, t.lexeme = .op o → signed? o operand ts = none
  · cases hcall : Extent.callParen? t.lexeme ts with
    | none =>
        rw [terms_single hbrace hcall hsigned]
        exact (Yields.any _).bind fun made _ => hcons _
    | some found =>
        obtain ⟨word, hw, _⟩ := Extent.callParen?_name hcall
        rw [terms_name hw, hcall]
        refine (Yields.any _).bind fun function _ => ?_
        split
        · exact Yields.throw _
        · exact (Yields.any _).bind fun args _ => hcons _
  · obtain ⟨o, ho, v, rest, hs⟩ := exists_signed? hsigned
    rw [terms_signed ho hs]
    exact (Yields.any _).bind fun made _ => Yields.pure (by simp)

/-! ### Errors of parsing -/

/-- Whether a parser fails with an error of parsing. -/
def Refuses {α : Type} (p : Parser α) (env : Environment) : Prop :=
  ∃ e env', p env = .error e env' ∧ e.kind? = some .parse

variable {α β : Type} {p : Parser α} {env env' : Environment}

theorem Refuses.of_eq {q : Parser α} (h : p env = q env') (hq : Refuses q env') :
    Refuses p env := by
  unfold Refuses
  rwa [h]

theorem refuses_failAt {cause : Cause} (h : cause.kind = .parse) (pos : Position)
    (env : Environment) : Refuses (failAt cause pos : Parser α) env :=
  ⟨_, env, rfl, congrArg some h⟩

theorem not_refuses_pure (a : α) : ¬Refuses (pure a : Parser α) env := by
  rintro ⟨e, env', hpure, _⟩
  cases hpure

theorem refuses_bind_iff {f : α → Parser β} : Refuses (p >>= f) env ↔
    Refuses p env ∨ ∃ a env', p env = .ok a env' ∧ Refuses (f a) env' := by
  cases hp : p env with
  | ok a env' =>
      simp only [Refuses, bind_of_ok hp, hp]
      constructor
      · intro hf
        exact .inr ⟨a, env', rfl, hf⟩
      · rintro (⟨e, env₁, herror, _⟩ | ⟨a₁, env₁, hok, hf⟩)
        · cases herror
        · cases hok
          exact hf
  | error e env' =>
      constructor
      · rintro ⟨e₁, env₁, herror, he⟩
        rw [bind_of_error hp] at herror
        cases herror
        exact .inl ⟨e, env', hp, he⟩
      · rintro (⟨e₁, env₁, herror, he⟩ | ⟨a₁, env₁, hok, _⟩)
        · rw [hp] at herror
          cases herror
          exact ⟨e, env', bind_of_error hp, he⟩
        · cases hok

theorem Refuses.bind (h : Refuses p env) (f : α → Parser β) : Refuses (p >>= f) env :=
  refuses_bind_iff.2 (.inl h)

theorem refuses_bind_of_ok {a : α} {f : α → Parser β} (hp : p env = .ok a env')
    (hf : Refuses (f a) env') : Refuses (p >>= f) env :=
  refuses_bind_iff.2 (.inr ⟨a, env', hp, hf⟩)

/-- No terms are made of more tokens than the extent has. -/
theorem refuses_terms_past {x : Extent} {stop : Token} {after : List Token} {made : List Term}
    (hx : Extent.find operand ts = .ok x) (hrest : x.rest = stop :: after)
    (hmade : terms scope operand x.inside env = .ok made env') (more : List Token) :
    Refuses (terms scope operand (x.inside ++ stop :: more)) env := by
  obtain ⟨cause, hcause, hpast⟩ := terms_past scope hx hrest more
  rw [hpast]
  exact refuses_bind_of_ok hmade (refuses_failAt hcause _ _)

/-- What is refused as an operand is refused without one due. -/
theorem Refuses.terms_false (h : Refuses (terms scope true (t :: ts)) env) :
    Refuses (terms scope false (t :: ts)) env := by
  by_cases hbrace : t.lexeme = .openBrace
  · rw [terms_openBrace hbrace]
    exact refuses_failAt rfl t.pos env
  · obtain ⟨p, f, g, htrue, hfalse⟩ := terms_operand scope ts hbrace
    rw [htrue] at h
    rcases refuses_bind_iff.1 h with hp | ⟨_, _, _, hpure⟩
    · rw [hfalse]
      exact hp.bind _
    · exact absurd hpure (not_refuses_pure _)

theorem terms_false_of_ok {made : List Term} (h : terms scope true (t :: ts) env = .ok made env') :
    Refuses (terms scope false (t :: ts)) env ∨
      ∃ other, other ≠ [] ∧ terms scope false (t :: ts) env = .ok other env' := by
  by_cases hbrace : t.lexeme = .openBrace
  · left
    rw [terms_openBrace hbrace]
    exact refuses_failAt rfl t.pos env
  · obtain ⟨p, f, g, htrue, hfalse⟩ := terms_operand scope ts hbrace
    rw [htrue] at h
    obtain ⟨common, env₁, hp, hpure⟩ := exists_of_bind_ok h
    cases hpure
    have hother : terms scope false (t :: ts) env = .ok (g common) env' := by
      rw [hfalse, bind_of_ok hp]
      rfl
    exact .inr ⟨g common, (terms_ne_nil scope false t ts).of_ok hother, hother⟩

end Parser

end Scriptlet
