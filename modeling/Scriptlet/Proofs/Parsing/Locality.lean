import Scriptlet.Proofs.Parsing.Reading

/-!
# What follows on a program

Brackets are matched and expressions are cut by looking ahead over all tokens that are
left. Nevertheless, an accepted program does not depend on what follows on it, if that
begins with a semicolon. The main statement is `Reads.continues`: the parser does with a
program and its continuation what it does with the one and then with the other. With
nothing to follow, it says that what is read is accepted.
-/

namespace Scriptlet

/-- Whether tokens may follow on a program: there are none, or they begin with a semicolon. -/
def Separated (ts : List Token) : Prop :=
  ∀ t ∈ ts.head?, t.lexeme = .semicolon

variable {ts more : List Token}

theorem Bracket.group?_followed {b : Bracket} {depth : Nat} {g : Group}
    (h : b.group? depth ts = some g) (more : List Token) :
    b.group? depth (ts ++ more) = some { g with rest := g.rest ++ more } := by
  induction ts generalizing depth g with
  | nil => cases h
  | cons t ts ih =>
      rw [List.cons_append]
      unfold group? at h ⊢
      split at h
      · rename_i hopens
        obtain ⟨g', hg, rfl⟩ := Option.map_eq_some_iff.1 h
        rw [if_pos hopens, ih hg]
        rfl
      · rename_i hopens
        rw [if_neg hopens]
        split at h
        · rename_i hcloses
          rw [if_pos hcloses]
          cases depth with
          | zero =>
              cases h
              rfl
          | succ outer =>
              obtain ⟨g', hg, rfl⟩ := Option.map_eq_some_iff.1 h
              dsimp only
              rw [ih hg]
              rfl
        · rename_i hcloses
          obtain ⟨g', hg, rfl⟩ := Option.map_eq_some_iff.1 h
          rw [if_neg hcloses, ih hg]
          rfl

/-- A group is the same in front of other tokens. -/
theorem Bracket.group?_continued {b : Bracket} {depth : Nat} {g : Group}
    (h : b.group? depth ts = some g) (more : List Token) :
    b.group? depth (g.inner ++ g.close :: more) = some ⟨g.inner, g.close, more⟩ := by
  have hfollowed := group?_followed (group?_inner h) more
  rwa [List.append_assoc, List.singleton_append] at hfollowed

/-- A bracket that is not closed stays open while no closing one follows. -/
theorem Bracket.group?_none_followed {b : Bracket} {depth : Nat} (h : b.group? depth ts = none)
    (hmore : ∀ t ∈ more, b.opens t.lexeme = false ∧ b.closes t.lexeme = false) :
    b.group? depth (ts ++ more) = none := by
  induction ts generalizing depth with
  | nil =>
      clear h
      rw [List.nil_append]
      induction more with
      | nil => rfl
      | cons t more ih =>
          obtain ⟨⟨hopens, hcloses⟩, hrest⟩ := List.forall_mem_cons.1 hmore
          simp [group?, hopens, hcloses, ih hrest]
  | cons t ts ih =>
      rw [List.cons_append]
      unfold group? at h ⊢
      split at h
      · rename_i hopens
        rw [if_pos hopens, ih (Option.map_eq_none_iff.1 h), Option.map_none]
      · rename_i hopens
        rw [if_neg hopens]
        split at h
        · rename_i hcloses
          rw [if_pos hcloses]
          cases depth with
          | zero => cases h
          | succ outer =>
              dsimp only
              rw [ih (Option.map_eq_none_iff.1 h), Option.map_none]
        · rename_i hcloses
          rw [if_neg hcloses, ih (Option.map_eq_none_iff.1 h), Option.map_none]

theorem Bracket.none_of_semicolons (b : Bracket) (hmore : ∀ t ∈ more, t.lexeme = .semicolon) :
    ∀ t ∈ more, b.opens t.lexeme = false ∧ b.closes t.lexeme = false := by
  intro t ht
  rw [hmore t ht]
  cases b <;> exact ⟨rfl, rfl⟩

/-- A group is closed before the semicolons at the end. -/
theorem Bracket.group?_before_semicolons {b : Bracket} {depth : Nat} {g : Group}
    (h : b.group? depth (ts ++ more) = some g) (hmore : ∀ t ∈ more, t.lexeme = .semicolon) :
    ∃ g', b.group? depth ts = some g' ∧ g = { g' with rest := g'.rest ++ more } := by
  cases hg : b.group? depth ts with
  | none =>
      rw [group?_none_followed hg (b.none_of_semicolons hmore)] at h
      cases h
  | some g' =>
      rw [group?_followed hg] at h
      cases h
      exact ⟨g', rfl, rfl⟩

theorem Extent.callParen?_followed {l : Lexeme} {t : Token} {rest : List Token}
    (h : callParen? l ts = some (t, rest)) (more : List Token) :
    callParen? l (ts ++ more) = some (t, rest ++ more) := by
  unfold callParen? at h
  split at h
  · cases h
    rfl
  · cases h

theorem Extent.callParen?_none_append {l : Lexeme}
    (hmore : ∀ t ∈ more.head?, t.lexeme ≠ .openParen) (h : callParen? l ts = none) :
    callParen? l (ts ++ more) = none := by
  cases ts with
  | nil =>
      unfold callParen?
      split
      · rename_i heq
        exact absurd rfl (hmore _ (by rw [← List.nil_append more, heq]; rfl))
      · rfl
  | cons t ts =>
      unfold callParen? at h
      split at h
      · cases h
      · rename_i hnone
        unfold callParen?
        split
        · rename_i heq
          rw [List.cons_append] at heq
          cases heq
          exact absurd rfl (hnone _ _ _ _ rfl)
        · rfl

theorem Extent.callParen?_none_followed {l : Lexeme} (hmore : Separated more)
    (h : callParen? l ts = none) : callParen? l (ts ++ more) = none :=
  callParen?_none_append (fun t ht => by simp [hmore t ht]) h

/-- An expression ends before what follows. -/
theorem Extent.find_followed {operand : Bool} {e : Extent} (hmore : Separated more)
    (h : find operand ts = .ok e) :
    find operand (ts ++ more) = .ok { e with rest := e.rest ++ more } := by
  fun_induction find operand ts generalizing e with
  | case1 operand =>
      cases h
      cases more with
      | nil => rw [List.nil_append, find]
      | cons t more =>
          rw [List.nil_append, find_cons, hmore t rfl]
          rfl
  | case2 operand t ts hends =>
      cases h
      rw [List.cons_append, find_cons, if_pos hends]
  | case3 operand t ts hends hopens hoperand =>
      cases h
      rw [List.cons_append, find_cons, if_neg hends, if_pos hopens, if_pos hoperand]
  | case4 => cases h
  | case5 operand t ts hends hopens hoperand g hg ih =>
      obtain ⟨e', he, rfl⟩ := map_eq_ok h
      rw [List.cons_append, find_cons, if_neg hends, if_pos hopens, if_neg hoperand,
        Bracket.group?_followed hg]
      dsimp only
      rw [ih he]
      rfl
  | case6 => cases h
  | case7 operand t ts hends hopens paren after hp g hg ih =>
      obtain ⟨e', he, rfl⟩ := map_eq_ok h
      rw [List.cons_append, find_cons, if_neg hends, if_neg hopens, callParen?_followed hp]
      dsimp only
      rw [Bracket.group?_followed hg]
      dsimp only
      rw [ih he]
      rfl
  | case8 operand t ts hends hopens hp ih =>
      obtain ⟨e', he, rfl⟩ := map_eq_ok h
      rw [List.cons_append, find_cons, if_neg hends, if_neg hopens,
        callParen?_none_followed hmore hp]
      dsimp only
      rw [ih he]
      rfl

theorem separated_of_semicolons (hmore : ∀ t ∈ more, t.lexeme = .semicolon) : Separated more :=
  fun t ht => hmore t (List.mem_of_mem_head? ht)

theorem Extent.map_eq_error {ε α β : Type} {f : α → β} {x : Except ε α} {e : ε}
    (h : x.map f = .error e) : x = .error e := by
  cases x with
  | error e' => simpa [Except.map] using h
  | ok a => simp [Except.map] at h

/-- No bracket is closed by semicolons. -/
theorem Extent.find_error_followed {operand : Bool} {e : Error}
    (hmore : ∀ t ∈ more, t.lexeme = .semicolon) (h : find operand ts = .error e) :
    find operand (ts ++ more) = .error e := by
  have hseparated := separated_of_semicolons hmore
  fun_induction find operand ts with
  | case1 => cases h
  | case2 => cases h
  | case3 => cases h
  | case4 operand t ts hends hopens hoperand hg =>
      rw [List.cons_append, find_cons, if_neg hends, if_pos hopens, if_neg hoperand,
        Bracket.group?_none_followed hg (Bracket.none_of_semicolons .brace hmore)]
      exact h
  | case5 operand t ts hends hopens hoperand g hg ih =>
      rw [List.cons_append, find_cons, if_neg hends, if_pos hopens, if_neg hoperand,
        Bracket.group?_followed hg]
      dsimp only
      rw [ih (map_eq_error h)]
      rfl
  | case6 operand t ts hends hopens paren after hp hg =>
      rw [List.cons_append, find_cons, if_neg hends, if_neg hopens, callParen?_followed hp]
      dsimp only
      rw [Bracket.group?_none_followed hg (Bracket.none_of_semicolons .paren hmore)]
      exact h
  | case7 operand t ts hends hopens paren after hp g hg ih =>
      rw [List.cons_append, find_cons, if_neg hends, if_neg hopens, callParen?_followed hp]
      dsimp only
      rw [Bracket.group?_followed hg]
      dsimp only
      rw [ih (map_eq_error h)]
      rfl
  | case8 operand t ts hends hopens hp ih =>
      rw [List.cons_append, find_cons, if_neg hends, if_neg hopens,
        callParen?_none_followed hseparated hp]
      dsimp only
      rw [ih (map_eq_error h)]
      rfl

theorem takeExpression_followed {after : Token} {e : Extent} (hmore : Separated more)
    (h : takeExpression after ts = .ok e) :
    takeExpression after (ts ++ more) = .ok { e with rest := e.rest ++ more } := by
  unfold takeExpression at h ⊢
  cases hfind : Extent.find true ts with
  | error error =>
      rw [hfind] at h
      cases h
  | ok found =>
      rw [hfind] at h
      rw [Extent.find_followed hmore hfind]
      dsimp only at h ⊢
      split at h
      · cases h
      · rename_i hinside
        rw [if_neg hinside]
        cases hrest : found.rest with
        | nil =>
            rw [hrest] at h
            cases h
            cases more with
            | nil => simp [hrest]
            | cons t more =>
                have hsemicolon := hmore t rfl
                simp [hrest, Lexeme.isKeyword, hsemicolon]
        | cons t rest =>
            rw [hrest] at h
            dsimp only at h
            split at h
            · cases h
            · rename_i hkeyword
              cases h
              rw [hrest, List.cons_append]
              dsimp only
              rw [if_neg hkeyword]

theorem takeBlock_followed {last : Position} {g : Group} (h : takeBlock last ts = .ok g)
    (last' : Position) (more : List Token) :
    takeBlock last' (ts ++ more) = .ok { g with rest := g.rest ++ more } := by
  cases ts with
  | nil => cases h
  | cons t ts =>
      rw [List.cons_append]
      simp only [takeBlock] at h ⊢
      split at h
      · rename_i hopens
        rw [if_pos hopens]
        cases hg : Bracket.brace.group? 0 ts with
        | none =>
            rw [hg] at h
            cases h
        | some g' =>
            rw [hg] at h
            cases h
            rw [Bracket.group?_followed hg]
      · cases h

namespace Parser

theorem expectName_followed {after : Token} {name : String} {pos : Position} {rest : List Token}
    (h : expectName after ts = .ok (name, pos, rest)) (more : List Token) :
    expectName after (ts ++ more) = .ok (name, pos, rest ++ more) := by
  cases ts with
  | nil => cases h
  | cons t ts =>
      rw [List.cons_append]
      simp only [expectName] at h ⊢
      split at h
      · cases h
        rfl
      · cases h

theorem parameters_followed {function : String} {last : Position} {byRef : Bool}
    {params : List Param} {rest : List Token}
    (h : parameters function last byRef ts = .ok (params, rest)) (last' : Position)
    (more : List Token) :
    parameters function last' byRef (ts ++ more) = .ok (params, rest ++ more) := by
  induction ts generalizing byRef params with
  | nil => cases h
  | cons t ts ih =>
      rw [List.cons_append]
      unfold parameters at h ⊢
      split at h
      · cases h
        rfl
      · exact ih h
      · exact ih h
      · obtain ⟨⟨params', rest'⟩, hp, heq⟩ := Extent.map_eq_ok h
        cases heq
        rw [ih hp]
        rfl
      · cases h

theorem loopVariables_followed {last : Position} {names : List String} {rest : List Token}
    (h : loopVariables last ts = .ok (names, rest)) (last' : Position) (more : List Token) :
    loopVariables last' (ts ++ more) = .ok (names, rest ++ more) := by
  induction ts generalizing names with
  | nil => cases h
  | cons t ts ih =>
      rw [List.cons_append]
      unfold loopVariables at h ⊢
      split at h
      · cases h
        rfl
      · exact ih h
      · obtain ⟨⟨names', rest'⟩, hn, heq⟩ := Extent.map_eq_ok h
        cases heq
        rw [ih hn]
        rfl
      · cases h

/-! ### Programs -/

theorem ReadsHead.followed {scope : Scope} {after : Token} {env env' : Environment} {head : Expr}
    {g : Group} (h : ReadsHead scope after ts env head g env') (hmore : Separated more)
    (last : Position) :
    ∃ hlen, headed scope after last (ts ++ more) env =
      .ok ⟨⟨head, g.inner, g.rest ++ more⟩, hlen⟩ env' := by
  obtain ⟨x, last', hx, hhead, hb⟩ := h
  have heq : (headed scope after last (ts ++ more) >>= fun h => pure h.1) env =
      .ok ⟨head, g.inner, g.rest ++ more⟩ env' := by
    rw [headed_bind, takeExpression_followed hmore hx]
    dsimp only
    rw [bind_of_ok hhead, takeBlock_followed hb last more]
    rfl
  cases hheaded : headed scope after last (ts ++ more) env with
  | ok made env₁ =>
      rw [bind_of_ok hheaded] at heq
      obtain ⟨made, hlen⟩ := made
      cases heq
      exact ⟨hlen, rfl⟩
  | error e env₁ =>
      rw [bind_of_error hheaded] at heq
      cases heq

/-- Whether the parser does with `ts` and what follows what it does with the continuation
after the statements `stmts`. -/
def Continues (scope : Scope) (ts : List Token) (env : Environment) (stmts : List Stmt)
    (env' : Environment) : Prop :=
  ∀ more, Separated more →
    block scope (ts ++ more) env = (do let rest ← block scope more; return stmts ++ rest) env'

theorem separated_nil : Separated [] := by
  intro t ht
  cases ht

section Continues

variable {scope : Scope} {env env' : Environment} {stmts : List Stmt}

/-- Nothing may follow. -/
theorem Continues.block_eq (h : Continues scope ts env stmts env') :
    block scope ts env = .ok stmts env' := by
  have hnil := h [] separated_nil
  rw [List.append_nil, block_nil, pure_bind, List.append_nil] at hnil
  exact hnil

/-- A statement in front. -/
theorem Continues.cons (h : Continues scope ts env stmts env') (hmore : Separated more)
    (stmt : Stmt) :
    (do let rest ← block scope (ts ++ more); return stmt :: rest) env =
      (do let rest ← block scope more; return (stmt :: stmts) ++ rest) env' := by
  rw [bind_congr_left (h more hmore), bind_assoc]
  rfl

end Continues

/-- A program and what follows on it are parsed one after the other. -/
theorem Reads.continues {scope : Scope} {env env' : Environment} {stmts : List Stmt}
    (h : Reads scope ts env stmts env') : Continues scope ts env stmts env' := by
  induction h with
  | nil =>
      intro more _
      rw [List.nil_append]
      exact (congrFun (bind_pure (block _ more)) _).symm
  | @expr scope t ts x e rest env env₁ env₂ ht hx he hrest ih =>
      intro more hmore
      have hx := takeExpression_followed hmore hx
      rw [List.cons_append] at hx ⊢
      rw [block_expression ht, hx]
      dsimp only
      rw [bind_of_ok he]
      exact ih.cons hmore (.expr e)
  | separator ht hrest ih =>
      intro more hmore
      rw [List.cons_append]
      rcases ht with ht | ht
      · rw [block_semicolon ht, ih more hmore]
      · rw [block_comma ht, ih more hmore]
  | @define scope t ts after remaining name pos last params rest env env₁ env₂ ht hn hp hdefine
      hrest ih =>
      intro more hmore
      rw [List.cons_append, block_def ht, expectName_followed hn more]
      dsimp only
      rw [parameters_followed hp _ more]
      dsimp only
      have hdeclared : Parser.define name pos params env = .ok () env₁ := by
        rw [Parser.define, bind_of_ok (show (get : Parser Environment) env = .ok env env from rfl),
          hdefine]
        rfl
      rw [bind_of_ok hdeclared]
      exact ih more hmore
  | @implement scope t ts after name pos last k g body rest env env₁ env₂ ht hn hk hb hbody hrest
      ihbody ihrest =>
      -- Nothing follows on a body inside of its braces; `more` comes after the rest only.
      intro more hmore
      rw [List.cons_append, block_imp ht, expectName_followed hn more]
      dsimp only
      have hfound : implemented name pos env = .ok k env := by
        rw [implemented, bind_of_ok (show (get : Parser Environment) env = .ok env env from rfl),
          hk]
        rfl
      rw [bind_of_ok hfound, takeBlock_followed hb _ more]
      dsimp only
      rw [bind_of_ok ihbody.block_eq]
      exact ihrest more hmore
  | @cond scope t ts test g body rest env env₁ env₂ env₃ ht hhead hbody hrest ihbody ihrest =>
      intro more hmore
      rw [List.cons_append, block_if ht]
      obtain ⟨hlen, hheaded⟩ := hhead.followed hmore ((ts ++ more).getLastD t).pos
      rw [bind_of_ok hheaded]
      dsimp only
      rw [bind_of_ok ihbody.block_eq]
      exact ihrest.cons hmore (.cond test body)
  | @loop scope t ts test g body rest env env₁ env₂ env₃ ht hhead hbody hrest ihbody ihrest =>
      intro more hmore
      rw [List.cons_append, block_while ht]
      obtain ⟨hlen, hheaded⟩ := hhead.followed hmore ((ts ++ more).getLastD t).pos
      rw [bind_of_ok hheaded]
      dsimp only
      rw [bind_of_ok ihbody.block_eq]
      exact ihrest.cons hmore (.loop scope.nextLabel test body)
  | @each scope t ts after last names vars items g body rest env env₀ env₁ env₂ env₃ ht hv hvars hne
      hhead hbody hrest ihbody ihrest =>
      intro more hmore
      rw [List.cons_append, block_for ht, loopVariables_followed hv _ more]
      dsimp only
      rw [bind_of_ok hvars, if_neg (by simpa using hne)]
      obtain ⟨hlen, hheaded⟩ := hhead.followed hmore ((ts ++ more).getLastD t).pos
      rw [bind_of_ok hheaded]
      dsimp only
      rw [bind_of_ok ihbody.block_eq]
      exact ihrest.cons hmore (.each scope.nextLabel vars items body)
  | returnNow ht hrest ih =>
      intro more hmore
      rw [List.cons_append, block_return ht]
      exact ih.cons hmore .returnNow
  | @breakLoop scope t ts rest env env₁ ht hrest ih =>
      intro more hmore
      rw [List.cons_append, block_break ht]
      exact ih.cons hmore (.breakLoop scope.loop?)
  | @continueLoop scope t ts rest env env₁ ht hrest ih =>
      intro more hmore
      rw [List.cons_append, block_continue ht]
      exact ih.cons hmore (.continueLoop scope.loop?)
  | @braces scope t ts last g inner rest env env₁ env₂ ht hb hinner hrest ihinner ihrest =>
      intro more hmore
      have hb := takeBlock_followed hb ((ts ++ more).getLastD t).pos more
      rw [List.cons_append] at hb ⊢
      rw [block_openBrace ht, hb]
      dsimp only
      rw [bind_of_ok ihinner.block_eq, bind_congr_left (ihrest more hmore), bind_assoc]
      simp only [pure_bind, List.append_assoc]

end Parser

end Scriptlet
