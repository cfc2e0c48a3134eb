import Scriptlet.Proofs.Parsing.Refusal

/-!
# What an expression is made of

The extent of an expression is found by one pass over the tokens, and its terms are made by
another one, over the tokens inside of the extent only. Both keep their own account of whether
an operand is due, and both look for the brackets that close. Here the first pass is written
down as the pieces that it meets (`Scans`), each with the account at that place, and the second
one is made of them (`assemble`).

The main statement is `expression_of_find`: what the second pass does is what its pieces do, and
so, outside of arguments and elements, it can fail for an ampersand or for the name of a function
that is not declared, and for nothing else.
-/

namespace Scriptlet

/-- What is met in an expression: a token by itself, or a whole group of brackets. -/
inductive Form where
  | token (t : Token)
  | call (name paren : Token) (inner : List Token) (close : Token)
  | array (brace : Token) (inner : List Token) (close : Token)

/-- What is met in an expression, and whether an operand is due there. -/
structure Piece where
  operand : Bool
  form : Form

/-- The tokens of what is met. -/
def Form.tokens : Form → List Token
  | token t => [t]
  | call name paren inner close => name :: paren :: (inner ++ [close])
  | array brace inner close => brace :: (inner ++ [close])

/-- The tokens of pieces. -/
def Piece.tokensOf (pieces : List Piece) : List Token :=
  pieces.flatMap (·.form.tokens)

/-- The pieces that the search for the extent of an expression meets, and the tokens that it
leaves. It stops where the tokens end, at a token that ends every expression, and at a brace
where no operand is due. -/
inductive Scans : Bool → List Token → List Piece → List Token → Prop where
  | nil (operand : Bool) : Scans operand [] [] []
  | ends (operand : Bool) {t : Token} (ts : List Token) (ht : Extent.ends t.lexeme = true) :
      Scans operand (t :: ts) [] (t :: ts)
  | block {t : Token} (ts : List Token) (ht : t.lexeme = .openBrace) :
      Scans false (t :: ts) [] (t :: ts)
  | token (operand : Bool) {t : Token} {ts rest : List Token} {pieces : List Piece}
      (hends : Extent.ends t.lexeme = false) (hbrace : t.lexeme ≠ .openBrace)
      (hcall : Extent.callParen? t.lexeme ts = none)
      (h : Scans (Extent.wantsOperand t.lexeme) ts pieces rest) :
      Scans operand (t :: ts) (⟨operand, .token t⟩ :: pieces) rest
  | call (operand : Bool) {t paren : Token} {ts after rest : List Token} {g : Group}
      {pieces : List Piece} (hcall : Extent.callParen? t.lexeme ts = some (paren, after))
      (hg : Bracket.paren.group? 0 after = some g) (h : Scans false g.rest pieces rest) :
      Scans operand (t :: ts) (⟨operand, .call t paren g.inner g.close⟩ :: pieces) rest
  | array {t : Token} {ts rest : List Token} {g : Group} {pieces : List Piece}
      (ht : t.lexeme = .openBrace) (hg : Bracket.brace.group? 0 ts = some g)
      (h : Scans false g.rest pieces rest) :
      Scans true (t :: ts) (⟨true, .array t g.inner g.close⟩ :: pieces) rest

variable {operand : Bool} {ts rest : List Token} {pieces : List Piece}

/-- The search for the extent meets pieces, and what it finds is their tokens. -/
theorem Extent.exists_scans {x : Extent} (h : find operand ts = .ok x) :
    ∃ pieces, Scans operand ts pieces x.rest ∧ Piece.tokensOf pieces = x.inside := by
  fun_induction find operand ts generalizing x with
  | case1 operand =>
      cases h
      exact ⟨[], .nil operand, rfl⟩
  | case2 operand t ts hends =>
      cases h
      exact ⟨[], .ends operand ts hends, rfl⟩
  | case3 operand t ts hends hopens hoperand =>
      cases h
      obtain rfl : operand = false := by simpa using hoperand
      exact ⟨[], .block ts (Bracket.opens_brace_iff.1 hopens), rfl⟩
  | case4 => cases h
  | case5 operand t ts hends hopens hoperand g hg ih =>
      obtain ⟨x', hx, rfl⟩ := map_eq_ok h
      obtain ⟨pieces, hscans, htokens⟩ := ih hx
      obtain rfl : operand = true := by simpa using hoperand
      refine ⟨_, .array (Bracket.opens_brace_iff.1 hopens) hg hscans, ?_⟩
      simpa [Piece.tokensOf, Form.tokens, prepend] using htokens
  | case6 => cases h
  | case7 operand t ts hends hopens paren after hp g hg ih =>
      obtain ⟨x', hx, rfl⟩ := map_eq_ok h
      obtain ⟨pieces, hscans, htokens⟩ := ih hx
      refine ⟨_, .call operand hp hg hscans, ?_⟩
      simpa [Piece.tokensOf, Form.tokens, prepend] using htokens
  | case8 operand t ts hends hopens hp ih =>
      obtain ⟨x', hx, rfl⟩ := map_eq_ok h
      obtain ⟨pieces, hscans, htokens⟩ := ih hx
      refine ⟨_, .token operand (by simpa using hends) (mt Bracket.opens_brace_iff.2 hopens) hp
        hscans, ?_⟩
      simpa [Piece.tokensOf, Form.tokens, prepend] using htokens

namespace Parser

/-- The term of a piece by itself. -/
def formTerm (scope : Scope) : Form → Parser Term
  | .token t => single scope t
  | .call name _ inner _ => do
      let function ← callee name.lexeme.payload name.pos
      let args ← arguments scope (splitCommas 0 inner)
      return .call function name.lexeme.payload args name.pos
  | .array _ inner _ => do
      let items ← elements scope (splitCommas 0 inner)
      return .array items

/-- The number that a minus sign makes with the number after it, when an operand is due at the
sign. -/
def signedPiece? (p : Piece) : Option Piece → Option Value
  | some ⟨_, .token number⟩ =>
      match p.form with
      | .token sign =>
          match sign.lexeme with
          | .op o => (signed? o p.operand [number]).map (·.1)
          | _ => none
      | _ => none
  | _ => none

/-- The terms of pieces. Whether an operand is due is not found out again, but taken from the
pieces. -/
def assemble (scope : Scope) : List Piece → Parser (List Term)
  | [] => return []
  | p :: pieces =>
      match signedPiece? p pieces.head? with
      | some v => return .literal v :: (← assemble scope pieces).tail
      | none => do
          let made ← formTerm scope p.form
          return made :: (← assemble scope pieces)

/-- Only an operator joins a number. -/
theorem signedPiece?_eq_none {p : Piece} {next? : Option Piece}
    (h : ∀ sign o, p.form = .token sign → sign.lexeme = .op o → signedPiece? p next? = none) :
    signedPiece? p next? = none := by
  refine Classical.byContradiction fun hsome => hsome ?_
  unfold signedPiece?
  split
  · split
    · rename_i sign hform
      split
      · rename_i o ho
        exact absurd (h sign o hform ho) hsome
      · rfl
    · rfl
  · rfl

theorem signed?_head {o : Operator} {operand : Bool} (t : Token) (ts : List Token) :
    (signed? o operand (t :: ts)).map (·.1) = (signed? o operand [t]).map (·.1) := by
  obtain ⟨lexeme, pos, length⟩ := t
  unfold signed?
  split
  · cases lexeme <;> rfl
  · rfl

theorem signed?_eq_none {o : Operator} {operand : Bool} {t : Token} (ht : literal? t.lexeme = none)
    (ts : List Token) : signed? o operand (t :: ts) = none := by
  cases hs : signed? o operand (t :: ts) with
  | none => rfl
  | some found =>
      obtain ⟨number, w, heq, hnumber⟩ := exists_literal_of_signed? hs
      cases heq
      rw [ht] at hnumber
      cases hnumber

end Parser

open Scriptlet.Parser

namespace Scans

theorem append (h : Scans operand ts pieces rest) : Piece.tokensOf pieces ++ rest = ts := by
  induction h with
  | nil => rfl
  | ends => rfl
  | block => rfl
  | token operand hends hbrace hcall h ih => simp [Piece.tokensOf, Form.tokens, ← ih]
  | call operand hcall hg h ih =>
      rw [Extent.callParen?_eq hcall, Bracket.group?_append hg, ← ih]
      simp [Piece.tokensOf, Form.tokens]
  | array ht hg h ih =>
      rw [Bracket.group?_append hg, ← ih]
      simp [Piece.tokensOf, Form.tokens]

/-- From any piece on, the search goes on as one that begins there. -/
theorem suffix (h : Scans operand ts pieces rest) {before after : List Piece} {p : Piece}
    (hp : pieces = before ++ p :: after) : ∃ us, Scans p.operand us (p :: after) rest := by
  induction h generalizing before with
  | nil => simp at hp
  | ends => simp at hp
  | block => simp at hp
  | token operand hends hbrace hcall h ih =>
      cases before with
      | nil =>
          cases hp
          exact ⟨_, .token operand hends hbrace hcall h⟩
      | cons q before => exact ih (List.cons.inj hp).2
  | call operand hcall hg h ih =>
      cases before with
      | nil =>
          cases hp
          exact ⟨_, .call operand hcall hg h⟩
      | cons q before => exact ih (List.cons.inj hp).2
  | array ht hg h ih =>
      cases before with
      | nil =>
          cases hp
          exact ⟨_, .array ht hg h⟩
      | cons q before => exact ih (List.cons.inj hp).2

/-- Only a number that is a piece by itself joins a sign. -/
theorem signed?_tokensOf (h : Scans operand ts pieces rest) {due : Bool} {sign : Token}
    {o : Operator} (hsign : sign.lexeme = .op o) :
    (signed? o due (Piece.tokensOf pieces)).map (·.1) =
      signedPiece? ⟨due, .token sign⟩ pieces.head? := by
  have hempty : (signed? o due []).map (·.1) = none := by
    unfold signed?
    split <;> rfl
  cases h with
  | nil => exact hempty
  | ends => exact hempty
  | block => exact hempty
  | token operand hends hbrace hcall h =>
      simp only [signedPiece?, hsign]
      exact signed?_head _ _
  | call operand hcall hg h =>
      obtain ⟨word, hword, _⟩ := Extent.callParen?_name hcall
      simp only [signedPiece?]
      exact congrArg _ (signed?_eq_none (by rw [hword]; rfl) _)
  | array ht hg h =>
      simp only [signedPiece?]
      exact congrArg _ (signed?_eq_none (by rw [ht]; rfl) _)

/-- The terms of the tokens inside of the extent are those of its pieces. -/
theorem terms_eq (h : Scans operand ts pieces rest) (scope : Scope) :
    terms scope operand (Piece.tokensOf pieces) = assemble scope pieces := by
  induction h with
  | nil => exact terms_nil
  | ends => exact terms_nil
  | block => exact terms_nil
  | @token operand t ts rest pieces hends hbrace hcall h ih =>
      have htokens : Piece.tokensOf (⟨operand, .token t⟩ :: pieces) =
          t :: Piece.tokensOf pieces := rfl
      rw [htokens]
      rw [← h.append] at hcall
      by_cases hsigned : ∀ o, t.lexeme = .op o → signed? o operand (Piece.tokensOf pieces) = none
      · have hpiece : signedPiece? ⟨operand, .token t⟩ pieces.head? = none := by
          refine signedPiece?_eq_none fun sign o hform ho => ?_
          cases hform
          rw [← h.signed?_tokensOf ho, hsigned o ho]
          rfl
        rw [terms_single hbrace (Extent.callParen?_none_of_append hcall) hsigned, ih, assemble,
          hpiece]
        rfl
      · obtain ⟨o, ho, v, after, hs⟩ := exists_signed? hsigned
        have hpiece : signedPiece? ⟨operand, .token t⟩ pieces.head? = some v := by
          rw [← h.signed?_tokensOf ho, hs]
          rfl
        have hoperand : Extent.wantsOperand t.lexeme = true := by rw [ho]; rfl
        rw [hoperand] at ih
        rw [terms_signed ho hs, ih, assemble, hpiece]
  | @call operand t paren ts after rest g pieces hcall hg h ih =>
      obtain ⟨word, hword, hparen⟩ := Extent.callParen?_name hcall
      have htokens : Piece.tokensOf (⟨operand, .call t paren g.inner g.close⟩ :: pieces) =
          t :: paren :: (g.inner ++ g.close :: Piece.tokensOf pieces) := by
        simp [Piece.tokensOf, Form.tokens]
      rw [htokens, terms_call hword hparen hg, ih, assemble,
        signedPiece?_eq_none fun sign o hform => by cases hform]
      simp only [formTerm, hword, Lexeme.payload, bind_assoc, pure_bind]
  | @array t ts rest g pieces ht hg h ih =>
      have htokens : Piece.tokensOf (⟨true, .array t g.inner g.close⟩ :: pieces) =
          t :: (g.inner ++ g.close :: Piece.tokensOf pieces) := by
        simp [Piece.tokensOf, Form.tokens]
      rw [htokens, terms_array ht hg, ih, assemble,
        signedPiece?_eq_none fun sign o hform => by cases hform]
      simp only [formTerm, bind_assoc, pure_bind]

end Scans

/-! ### Errors -/

/-- Whether something fails inside of brackets: an argument of a call, or an element of an array. -/
def Form.FailsInside (scope : Scope) (env : Environment) (e : Failure) (env' : Environment) :
    Form → Prop
  | .token _ => False
  | .call _ _ inner _ => arguments scope (splitCommas 0 inner) env = .error e env'
  | .array _ inner _ => elements scope (splitCommas 0 inner) env = .error e env'

/-- How what is met in an expression may fail: a token by itself is an ampersand, a name is not
that of a function, or something inside of the brackets fails. -/
inductive Form.Fails (scope : Scope) (env : Environment) (e : Failure) (env' : Environment) :
    Form → Prop where
  | ampersand {t : Token} (ht : t.lexeme = .ref)
      (he : e = .error ((Cause.tokenInExpression .ref).located t.pos)) :
      Fails scope env e env' (.token t)
  | undeclared {name paren close : Token} {inner : List Token} {word : String}
      (hname : name.lexeme = .name word) (hword : env.functionIndex? word = none)
      (he : e = .error ((Cause.undeclaredFunction word).located name.pos)) :
      Fails scope env e env' (.call name paren inner close)
  | inside {form : Form} (h : form.FailsInside scope env e env') : Fails scope env e env' form

variable {scope : Scope} {env env' : Environment} {e : Failure}

/-- That a function is not declared is no error of parsing, so outside of brackets only an
ampersand gives one. -/
theorem Form.Fails.of_parse {form : Form} (h : form.Fails scope env e env')
    (hkind : e.kind? = some .parse) :
    (∃ t, form = .token t ∧ t.lexeme = .ref ∧
      e = .error ((Cause.tokenInExpression .ref).located t.pos)) ∨
      form.FailsInside scope env e env' := by
  cases h with
  | ampersand ht he => exact .inl ⟨_, rfl, ht, he⟩
  | undeclared _ _ he =>
      rw [he] at hkind
      cases hkind
  | inside h => exact .inr h

theorem eq_ref_of_single {t : Token} (hends : Extent.ends t.lexeme = false)
    (hbrace : t.lexeme ≠ .openBrace) (h : single scope t env = .error e env') :
    t.lexeme = .ref ∧ e = .error ((Cause.tokenInExpression .ref).located t.pos) := by
  obtain ⟨lexeme, pos, length⟩ := t
  cases lexeme with
  | ref =>
      cases h
      exact ⟨rfl, rfl⟩
  | name word =>
      cases h
  | openBrace => exact absurd rfl hbrace
  | closeBrace | semicolon | comma | keyword => cases hends
  | _ => cases h

theorem callee_eq (word : String) (pos : Position) (env : Environment) :
    callee word pos env =
      match env.functionIndex? word with
      | some i => .ok i env
      | none => .error (.error ((Cause.undeclaredFunction word).located pos)) env := by
  rw [callee, bind_of_ok (show (get : Parser Environment) env = .ok env env from rfl)]
  cases env.functionIndex? word <;> rfl

/-- The pieces of an expression that has been found fail in these ways only. -/
theorem Scans.fails (h : Scans operand ts pieces rest) {p : Piece} (hp : p ∈ pieces)
    (he : formTerm scope p.form env = .error e env') : p.form.Fails scope env e env' := by
  induction h with
  | nil => cases hp
  | ends => cases hp
  | block => cases hp
  | @token operand t ts rest pieces hends hbrace hcall h ih =>
      rcases List.mem_cons.1 hp with rfl | hp
      · obtain ⟨ht, he⟩ := eq_ref_of_single hends hbrace he
        exact .ampersand ht he
      · exact ih hp
  | @call operand t paren ts after rest g pieces hcall hg h ih =>
      rcases List.mem_cons.1 hp with rfl | hp
      · obtain ⟨word, hword, _⟩ := Extent.callParen?_name hcall
        simp only [formTerm, hword, Lexeme.payload] at he
        cases hfunction : env.functionIndex? word with
        | none =>
            have hcallee := callee_eq word t.pos env
            rw [hfunction] at hcallee
            rw [bind_of_error hcallee] at he
            cases he
            exact .undeclared hword hfunction rfl
        | some function =>
            have hcallee := callee_eq word t.pos env
            rw [hfunction] at hcallee
            rw [bind_of_ok hcallee] at he
            rcases error_of_bind he with he | ⟨args, u, _, hpure⟩
            · exact .inside he
            · cases hpure
      · exact ih hp
  | @array t ts rest g pieces ht hg h ih =>
      rcases List.mem_cons.1 hp with rfl | hp
      · rcases error_of_bind he with he | ⟨items, u, _, hpure⟩
        · exact .inside he
        · cases hpure
      · exact ih hp

/-- The number after a sign is a term by itself too. -/
theorem formTerm_of_signedPiece? {p q : Piece} {v : Value}
    (h : signedPiece? p (some q) = some v) :
    ∃ w, formTerm scope q.form = pure (.literal w) := by
  unfold signedPiece? at h
  split at h
  · rename_i number heq
    cases heq
    split at h
    · split at h
      · obtain ⟨⟨joined, after⟩, hjoined, -⟩ := Option.map_eq_some_iff.1 h
        obtain ⟨literal, w, heq, hnumber⟩ := exists_literal_of_signed? hjoined
        cases heq
        exact ⟨w, by rw [formTerm, single, hnumber]⟩
      · cases h
    · cases h
  · cases h

/-- When the terms of pieces cannot be made, those of the pieces before one of them are made, and
that one fails. -/
theorem exists_of_assemble_error (h : assemble scope pieces env = .error e env') :
    ∃ before p after made env₁, pieces = before ++ p :: after ∧
      assemble scope before env = .ok made env₁ ∧ formTerm scope p.form env₁ = .error e env' := by
  induction pieces generalizing env with
  | nil => cases h
  | cons p pieces ih =>
      rw [assemble] at h
      cases hs : signedPiece? p pieces.head? with
      | some v =>
          rw [hs] at h
          rcases error_of_bind h with hrest | ⟨_, _, _, hpure⟩
          · obtain ⟨before, q, after, made, env₁, rfl, hbefore, hq⟩ := ih hrest
            cases before with
            | nil =>
                obtain ⟨w, hw⟩ := formTerm_of_signedPiece? hs
                rw [hw] at hq
                cases hq
            | cons _ before =>
                refine ⟨p :: _ :: before, q, after, .literal v :: made.tail, env₁, rfl, ?_, hq⟩
                rw [assemble, show signedPiece? p (_ :: before).head? = some v from hs]
                dsimp only
                rw [bind_of_ok hbefore]
                rfl
          · cases hpure
      | none =>
          rw [hs] at h
          rcases error_of_bind h with hp | ⟨made, u, hmade, hrest⟩
          · exact ⟨[], p, pieces, [], env, rfl, rfl, hp⟩
          · rcases error_of_bind hrest with hrest | ⟨_, _, _, hpure⟩
            · obtain ⟨before, q, after, others, env₁, rfl, hbefore, hq⟩ := ih hrest
              refine ⟨p :: before, q, after, made :: others, env₁, rfl, ?_, hq⟩
              have hnone : signedPiece? p before.head? = none := by
                cases before with
                | nil => rfl
                | cons _ _ => exact hs
              rw [assemble, hnone]
              dsimp only
              rw [bind_of_ok hmade, bind_of_ok hbefore]
              rfl
            · cases hpure

/-- The pieces that the search for an expression meets are those that its terms are made of: the
two agree, at every one of them, on whether an operand is due and on the bracket that closes. So
no brace is unexpected there and no bracket is left open. The terms cannot be made only if an
ampersand is met, or the name of an undeclared function, or if something fails inside of an
argument list or an array literal. An error of parsing is for an ampersand, or it comes from
inside. -/
theorem expression_of_find {x : Extent} (h : Extent.find true ts = .ok x) (hne : x.inside ≠ []) :
    ∃ pieces, Scans true ts pieces x.rest ∧ Piece.tokensOf pieces = x.inside ∧
      ∀ scope, terms scope true x.inside = assemble scope pieces ∧
        (∀ before p after, pieces = before ++ p :: after →
          terms scope p.operand (Piece.tokensOf (p :: after)) = assemble scope (p :: after)) ∧
        ∀ env e env', expression scope x.inside env = .error e env' →
          ∃ before p after made env₁, pieces = before ++ p :: after ∧
            assemble scope before env = .ok made env₁ ∧ p.form.Fails scope env₁ e env' ∧
            (e.kind? = some .parse →
              (∃ t, p.form = .token t ∧ t.lexeme = .ref ∧
                e = .error ((Cause.tokenInExpression .ref).located t.pos)) ∨
              p.form.FailsInside scope env₁ e env') := by
  obtain ⟨pieces, hscans, htokens⟩ := Extent.exists_scans h
  refine ⟨pieces, hscans, htokens, fun scope => ?_⟩
  have hterms : terms scope true x.inside = assemble scope pieces := by
    rw [← htokens]
    exact hscans.terms_eq scope
  refine ⟨hterms, fun before p after hp => ?_, fun env e env' he => ?_⟩
  · obtain ⟨us, hsuffix⟩ := hscans.suffix hp
    exact hsuffix.terms_eq scope
  · have hassemble : assemble scope pieces env = .error e env' := by
      obtain ⟨t, inside, hinside⟩ := List.exists_cons_of_ne_nil hne
      rw [hinside] at he
      rcases error_of_bind he with he | ⟨_, _, _, hpure⟩
      · rwa [← hterms, hinside]
      · cases hpure
    obtain ⟨before, p, after, made, env₁, rfl, hbefore, hp⟩ := exists_of_assemble_error hassemble
    have hfails : p.form.Fails scope env₁ e env' := hscans.fails (by simp) hp
    exact ⟨before, p, after, made, env₁, rfl, hbefore, hfails, hfails.of_parse⟩

/-- A negative number and a call with an ampersand inside, in front of a block. -/
def headOfBlock : List Token :=
  [.op .sub, .int "1" 1, .op .add, .name "f", .openParen, .int "2" 2, .ref, .closeParen,
    .openBrace].map fun l => ⟨l, .start, 1⟩

theorem expression_of_find_headOfBlock :
    ∃ pieces, Scans true headOfBlock pieces (headOfBlock.drop 8) ∧
      Piece.tokensOf pieces = headOfBlock.take 8 ∧
      ∃ p ∈ pieces, ∃ env env', p.form.Fails .top env
        (.error ((Cause.tokenInExpression .ref).located .start)) env' := by
  have hfind : Extent.find true headOfBlock = .ok ⟨headOfBlock.take 8, headOfBlock.drop 8⟩ := by
    cbv
  have herror : expression .top (headOfBlock.take 8)
      (Environment.empty.addFunction (.declared "f" [])) =
        .error (.error ((Cause.tokenInExpression .ref).located .start))
          (Environment.empty.addFunction (.declared "f" [])) := by
    with_unfolding_all rfl
  obtain ⟨pieces, hscans, htokens, hterms⟩ := expression_of_find hfind (by decide)
  obtain ⟨before, p, after, made, env, rfl, -, hp, -⟩ := (hterms .top).2.2 _ _ _ herror
  exact ⟨_, hscans, htokens, p, by simp, env, _, hp⟩

end Scriptlet
