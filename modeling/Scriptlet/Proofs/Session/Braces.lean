import Scriptlet.Proofs.Parsing.Commas
import Scriptlet.Proofs.Parsing.Refusal
import Scriptlet.Proofs.Session.ExpressionStatement
import Scriptlet.Proofs.Session.Fallback

/-!
# Braces as a block and as an array

Braces are a block where a statement begins, and an array literal where an operand is due. A
line that begins with a brace can be read in both ways. `ReadAsArray` says what the second
makes of statements that could be run: an error of parsing, or elements that are the
statements one by one. To evaluate them is then to run the statements, unless there are braces
among them that further terms continue. The main statement is `Parser.Reads.readAsArray`.

Elements are divided at commas before they are parsed, and statements are cut where their
expression ends. The two come to the same because the statements could be run: what has
a value has its parentheses in pairs, and then no comma stands between them.
-/

namespace Scriptlet

mutual

/-- Whether braces that stand where a statement would begin are followed by further terms: at
the start of the expression, or of an element if the expression is nothing but an array. -/
def Expr.continuesBraces : Expr → Bool
  | .mk [.array items] _ => itemsContinueBraces items
  | .mk (.array _ :: _ :: _) _ => true
  | .mk _ _ => false

/-- Whether some of the elements continues braces. -/
def itemsContinueBraces : List Expr → Bool
  | [] => false
  | e :: es => e.continuesBraces || itemsContinueBraces es

end

variable {call : Caller} {fuel : Nat} {s t u : Session} {signal : Signal}

/-! ### Running -/

theorem execBlock_append (call : Caller) (fuel : Nat) (ss rest : List Stmt) :
    execBlock call fuel (ss ++ rest) = (do
      match ← execBlock call fuel ss with
      | .next => execBlock call fuel rest
      | signal => return signal) := by
  induction ss with
  | nil => rfl
  | cons stmt ss ih =>
      rw [List.cons_append, execBlock, execBlock, ih, bind_assoc]
      refine bind_congr fun signal => ?_
      cases signal <;> rfl

theorem exists_of_execBlock_expr {e : Expr} {rest : List Stmt}
    (h : execBlock call fuel (.expr e :: rest) s = .ok signal t) :
    ∃ v u, evalExpr call e s = .ok v u ∧ execBlock call fuel rest u = .ok signal t := by
  rw [execBlock, execStmt] at h
  cases heval : evalExpr call e s with
  | ok v u =>
      have hstmt : (do discard (evalExpr call e); return Signal.next) s = .ok .next u :=
        bind_of_ok (discard_of_ok heval)
      rw [bind_of_ok hstmt] at h
      exact ⟨v, u, rfl, h⟩
  | error failure u =>
      rw [bind_of_error (bind_of_error (discard_of_error heval))] at h
      cases h

theorem evalExpr_array {items : List Expr} {vs : List Value} (pos : Position)
    (h : evalItems call items s = .ok vs t) :
    evalExpr call (.mk [.array items] pos) s = .ok (.array vs) t := by
  have hsort : sortTerms call s .empty [.array items] s =
      .ok (Yard.empty.operand ⟨.array vs, none⟩) t := by
    rw [sortTerms, bind_of_ok h, sortTerms]
    rfl
  have hstart : evalExpr call (.mk [.array items] pos) s =
      (sortTerms call s .empty [.array items] >>= fun yard =>
        Exec.ofExcept yard.finish >>= Entry.evaluate pos) s := by
    rw [evalExpr]
    rfl
  rw [hstart, bind_of_ok hsort]
  rfl

namespace Parser

variable {scope : Scope} {env env₁ env₂ : Environment} {ts : List Token}

theorem exists_of_expression {tok : Token} {e : Expr}
    (h : expression scope (tok :: ts) env = .ok e env₁) :
    ∃ made, terms scope true (tok :: ts) env = .ok made env₁ ∧ e = .mk made tok.pos := by
  rw [expression] at h
  obtain ⟨made, env', hmade, hpure⟩ := exists_of_bind_ok h
  cases hpure
  exact ⟨made, hmade, rfl⟩

/-- Braces at the start of an expression are its first term. -/
theorem expression_array {tok : Token} {g : Group} (htok : tok.lexeme = .openBrace)
    (hg : Bracket.brace.group? 0 ts = some g) :
    expression scope (tok :: ts) = (do
      let items ← elements scope (splitCommas 0 g.inner)
      let rest ← terms scope false g.rest
      return .mk (.array items :: rest) tok.pos) := by
  rw [expression, Bracket.group?_append hg, terms_array htok hg]
  simp only [bind_assoc, pure_bind]

/-- The array that tokens in braces make, when they are statements that were run from `s` to
`t`. -/
inductive ReadAsArray (call : Caller) (scope : Scope) (ts : List Token) (env env' : Environment)
    (s t : Session) (signal : Signal) : Prop where
  | refused (h : Refuses (elements scope (splitCommas 0 ts)) env)
  | made (items : List Expr) (hitems : elements scope (splitCommas 0 ts) env = .ok items env')
      (hsignal : signal = .next) (hundivided : Undivided 1 0 ts)
      (hvalues : itemsContinueBraces items = false → ∃ vs, evalItems call items s = .ok vs t)

namespace ReadAsArray

theorem nil : ReadAsArray call scope [] env env s s .next := by
  refine .made [] ?_ rfl undivided_nil fun _ => ⟨[], ?_⟩
  · rw [splitCommas, elements_skip, elements_nil]
    rfl
  · rw [evalItems]
    rfl

theorem comma {tok : Token} (htok : tok.lexeme = .comma)
    (h : ReadAsArray call scope ts env env₁ s t signal) :
    ReadAsArray call scope (tok :: ts) env env₁ s t signal := by
  have helements : elements scope (splitCommas 0 (tok :: ts)) =
      elements scope (splitCommas 0 ts) := by
    rw [splitCommas_comma htok, elements_skip]
  cases h with
  | refused h => exact .refused (helements ▸ h)
  | made items hitems hsignal hundivided hvalues =>
      exact .made items (helements ▸ hitems) hsignal ((undivided_comma htok).append hundivided)
        hvalues

theorem ends {tok : Token} (htok : Extent.ends tok.lexeme = true) (hcomma : tok.lexeme ≠ .comma) :
    ReadAsArray call scope (tok :: ts) env env₁ s t signal := by
  obtain ⟨part, parts, hparts⟩ :=
    List.exists_cons_of_ne_nil (splitCommas_ne_nil (tok.lexeme.depthAfter 0) ts)
  refine .refused ?_
  rw [splitCommas_other fun h => hcomma h.1, hparts, consPart, elements_cons, terms_ends htok]
  exact (refuses_failAt rfl _ _).bind _

theorem expr {x : Extent} {e : Expr} {v : Value} (hx : Extent.find true ts = .ok x)
    (he : expression scope x.inside env = .ok e env₁) (heval : evalExpr call e s = .ok v u)
    (hrest : ReadAsArray call scope x.rest env₁ env₂ u t signal) :
    ReadAsArray call scope ts env env₂ s t signal := by
  have hinside : Undivided 0 0 x.inside :=
    undivided_of_expression he (Expr.closes_of_evalExpr heval)
  have hts := Extent.append_find _ _ _ hx
  obtain ⟨part, parts, hparts⟩ := List.exists_cons_of_ne_nil (splitCommas_ne_nil 0 x.rest)
  have hsplit : splitCommas 0 ts = (x.inside ++ part) :: parts := by
    rw [← hts, hinside.splitCommas_append, hparts, foldr_consPart]
  cases hcut : x.inside with
  | nil =>
      rw [hcut] at he
      cases he
  | cons first others =>
      rw [hcut] at he
      obtain ⟨made, hmade, rfl⟩ := exists_of_expression he
      cases part with
      | nil =>
          have helements : elements scope (splitCommas 0 ts) = (do
              let item ← terms scope true (first :: others)
              let rest ← elements scope (splitCommas 0 x.rest)
              return .mk item first.pos :: rest) := by
            rw [hsplit, List.append_nil, hcut, elements_cons, hparts, elements_skip]
          cases hrest with
          | refused h =>
              refine .refused ?_
              rw [helements]
              exact refuses_bind_of_ok hmade (h.bind _)
          | made items hitems hsignal hundivided hvalues =>
              refine .made (.mk made first.pos :: items) ?_ hsignal ?_ ?_
              · rw [helements, bind_of_ok hmade, bind_of_ok hitems]
                rfl
              · rw [← hts]
                exact hinside.inside.append hundivided
              · intro hplain
                obtain ⟨vs, hvs⟩ := hvalues (Bool.or_eq_false_iff.1 hplain).2
                refine ⟨v :: vs, ?_⟩
                rw [evalItems, bind_of_ok heval, bind_of_ok hvs]
                rfl
      | cons stop more =>
          obtain ⟨after, hafter⟩ := splitCommas_head_isPrefix hparts
          rw [← hcut] at hmade
          have hpast := refuses_terms_past hx hafter hmade more
          refine .refused ?_
          rw [hsplit, hcut, List.cons_append, elements_cons]
          rw [hcut] at hpast
          exact hpast.bind _

section Braces

variable {tok : Token} {g : Group} {items : List Expr} {part : List Token}
  {parts : List (List Token)}

/-- What is refused inside of braces is refused with them. -/
theorem refused_braces (htok : tok.lexeme = .openBrace) (hg : Bracket.brace.group? 0 ts = some g)
    (h : Refuses (elements scope (splitCommas 0 g.inner)) env) :
    ReadAsArray call scope (tok :: ts) env env₂ s t signal := by
  obtain ⟨part, parts, hparts⟩ := List.exists_cons_of_ne_nil (splitCommas_ne_nil 1 ts)
  refine .refused ?_
  rw [splitCommas_other (by simp [htok]), htok, Lexeme.depthAfter, Int.zero_add, hparts,
    consPart, elements_cons, terms_openBrace htok, if_pos rfl]
  -- Dividing may have cut the braces, if there is a closing parenthesis in them.
  cases hcut : Bracket.brace.group? 0 part with
  | none => exact (refuses_failAt rfl _ _).bind _
  | some g' =>
      obtain ⟨more, hmore⟩ := splitCommas_head_isPrefix hparts
      have hsame : g'.inner = g.inner := by
        rw [hmore, Bracket.group?_followed hcut] at hg
        cases hg
        rfl
      exact ((hsame ▸ h).bind _).bind _

theorem undivided_braces (htok : tok.lexeme = .openBrace)
    (hg : Bracket.brace.group? 0 ts = some g) (hinner : Undivided 1 0 g.inner)
    (hrest : Undivided 1 0 g.rest) : Undivided 1 0 (tok :: ts) := by
  rw [Bracket.group?_append hg]
  simpa using (undivided_group htok hg hinner).inside.append hrest

/-- Braces are the first term of the first element, together with what comes before the first
comma after them. -/
theorem elements_braces (htok : tok.lexeme = .openBrace) (hg : Bracket.brace.group? 0 ts = some g)
    (hinner : Undivided 1 0 g.inner)
    (hitems : elements scope (splitCommas 0 g.inner) env = .ok items env₁)
    (hparts : splitCommas 0 g.rest = part :: parts) :
    elements scope (splitCommas 0 (tok :: ts)) env = (do
      let rest ← terms scope false part
      let others ← elements scope parts
      return .mk (.array items :: rest) tok.pos :: others : Parser (List Expr)) env₁ := by
  have hts : tok :: ts = tok :: (g.inner ++ [g.close]) ++ g.rest := by
    simp [← Bracket.group?_append hg]
  rw [hts, (undivided_group htok hg hinner).splitCommas_append, hparts, foldr_consPart]
  simp only [List.cons_append, List.append_assoc, List.nil_append]
  rw [elements_cons, terms_array htok hg]
  simp only [bind_assoc, pure_bind]
  rw [bind_of_ok hitems]

/-- Braces that nothing follows before the next comma are an element of their own. -/
theorem braces_alone (htok : tok.lexeme = .openBrace) (hg : Bracket.brace.group? 0 ts = some g)
    (hinner : Undivided 1 0 g.inner)
    (hitems : elements scope (splitCommas 0 g.inner) env = .ok items env₁)
    (hvalues : itemsContinueBraces items = false → ∃ vs, evalItems call items s = .ok vs u)
    (hparts : splitCommas 0 g.rest = [] :: parts)
    (hrest : ReadAsArray call scope g.rest env₁ env₂ u t signal) :
    ReadAsArray call scope (tok :: ts) env env₂ s t signal := by
  have helements := elements_braces htok hg hinner hitems hparts
  rw [terms_nil, pure_bind, ← elements_skip parts, ← hparts] at helements
  cases hrest with
  | refused h => exact .refused (.of_eq helements (h.bind _))
  | made others hothers hsignal hrest hvalues' =>
      refine .made (.mk [.array items] tok.pos :: others) ?_ hsignal
        (undivided_braces htok hg hinner hrest) ?_
      · rw [helements, bind_of_ok hothers]
        rfl
      · intro hplain
        obtain ⟨hplainItems, hplainOthers⟩ := Bool.or_eq_false_iff.1 hplain
        obtain ⟨vs, hvs⟩ := hvalues hplainItems
        obtain ⟨ws, hws⟩ := hvalues' hplainOthers
        refine ⟨.array vs :: ws, ?_⟩
        rw [evalItems, bind_of_ok (evalExpr_array _ hvs), bind_of_ok hws]
        rfl

/-- Braces that something follows before the next comma are continued, if that is not
refused. -/
theorem braces_continued {next : Token} {more : List Token} (htok : tok.lexeme = .openBrace)
    (hg : Bracket.brace.group? 0 ts = some g) (hinner : Undivided 1 0 g.inner)
    (hitems : elements scope (splitCommas 0 g.inner) env = .ok items env₁)
    (hparts : splitCommas 0 g.rest = (next :: more) :: parts)
    (hrest : ReadAsArray call scope g.rest env₁ env₂ u t signal) :
    ReadAsArray call scope (tok :: ts) env env₂ s t signal := by
  have helements := elements_braces htok hg hinner hitems hparts
  have hafter : elements scope (splitCommas 0 g.rest) = (do
      let item ← terms scope true (next :: more)
      let others ← elements scope parts
      return .mk item next.pos :: others) := by
    rw [hparts, elements_cons]
  cases hrest with
  | refused h =>
      refine .refused (.of_eq helements ?_)
      rw [hafter] at h
      rcases refuses_bind_iff.1 h with hnext | ⟨made, env', hnext, hothers⟩
      · exact hnext.terms_false.bind _
      · rcases refuses_bind_iff.1 hothers with hothers | ⟨_, _, _, hpure⟩
        · rcases terms_false_of_ok hnext with hfalse | ⟨other, _, hother⟩
          · exact hfalse.bind _
          · exact refuses_bind_of_ok hother (hothers.bind _)
        · exact absurd hpure (not_refuses_pure _)
  | made others hothers hsignal hrest _ =>
      rw [hafter] at hothers
      obtain ⟨made, env', hnext, hothers⟩ := exists_of_bind_ok hothers
      obtain ⟨later, env'', hlater, hpure⟩ := exists_of_bind_ok hothers
      cases hpure
      rcases terms_false_of_ok hnext with hfalse | ⟨other, hne, hother⟩
      · exact .refused (.of_eq helements (hfalse.bind _))
      · refine .made (.mk (.array items :: other) tok.pos :: later) ?_ hsignal
          (undivided_braces htok hg hinner hrest) ?_
        · rw [helements, bind_of_ok hother, bind_of_ok hlater]
          rfl
        · intro hplain
          obtain ⟨term, terms, rfl⟩ := List.exists_cons_of_ne_nil hne
          cases hplain

theorem braces {first : Signal} (htok : tok.lexeme = .openBrace)
    (hg : Bracket.brace.group? 0 ts = some g)
    (hinner : ReadAsArray call scope g.inner env env₁ s u first)
    (hrest : first = .next → ReadAsArray call scope g.rest env₁ env₂ u t signal) :
    ReadAsArray call scope (tok :: ts) env env₂ s t signal := by
  cases hinner with
  | refused h => exact refused_braces htok hg h
  | made items hitems hsignal hinner hvalues =>
      have hrest := hrest hsignal
      obtain ⟨part, parts, hparts⟩ := List.exists_cons_of_ne_nil (splitCommas_ne_nil 0 g.rest)
      cases part with
      | nil => exact braces_alone htok hg hinner hitems hvalues hparts hrest
      | cons next more => exact braces_continued htok hg hinner hitems hparts hrest

end Braces

end ReadAsArray

/-- Statements that could be run are read as an array to the same effect, or not at all. -/
theorem Reads.readAsArray {stmts : List Stmt} (h : Reads scope ts env stmts env₁)
    (hexec : execBlock call fuel stmts s = .ok signal t) :
    ReadAsArray call scope ts env env₁ s t signal := by
  induction h generalizing s t signal with
  | nil =>
      rw [execBlock] at hexec
      cases hexec
      exact .nil
  | expr ht hx he hrest ih =>
      obtain ⟨v, u, heval, hexec⟩ := exists_of_execBlock_expr hexec
      exact .expr (takeExpression_find hx) he heval (ih hexec)
  | separator ht hrest ih =>
      rcases ht with ht | ht
      · exact .ends (by rw [ht]; rfl) (by simp [ht])
      · exact .comma ht (ih hexec)
  | braces ht hb hinner hrest ihinner ihrest =>
      rw [execBlock_append] at hexec
      obtain ⟨first, u, hfirst, hexec⟩ := exists_of_bind_ok hexec
      refine .braces ht (takeBlock_group hb) (ihinner hfirst) ?_
      rintro rfl
      exact ihrest hexec
  | define ht => exact .ends (by rw [ht]; rfl) (by simp [ht])
  | implement ht => exact .ends (by rw [ht]; rfl) (by simp [ht])
  | cond ht => exact .ends (by rw [ht]; rfl) (by simp [ht])
  | loop ht => exact .ends (by rw [ht]; rfl) (by simp [ht])
  | each ht => exact .ends (by rw [ht]; rfl) (by simp [ht])
  | returnNow ht => exact .ends (by rw [ht]; rfl) (by simp [ht])
  | breakLoop ht => exact .ends (by rw [ht]; rfl) (by simp [ht])
  | continueLoop ht => exact .ends (by rw [ht]; rfl) (by simp [ht])

end Parser

end Scriptlet
