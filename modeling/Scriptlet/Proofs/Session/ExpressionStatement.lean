import Scriptlet.Proofs.Parsing.Locality
import Scriptlet.Proofs.Session.Rollback

/-!
# An expression as a program

A source that is one expression can be evaluated, by `Exec.eval`, and it can be run as a
program of one statement, by `Exec.exec`. The two cut and parse the tokens in different
ways: the one drops the semicolons at the end and looks for a single expression, the other
goes through the statements. The main statement is `discard_eval_eq_exec`: they come to the
same end in the same session.
-/

namespace Scriptlet

namespace Exec

theorem dropSemicolons_append (ts : List Token) :
    ∃ more, ts = dropSemicolons ts ++ more ∧ ∀ t ∈ more, t.lexeme = .semicolon := by
  obtain ⟨isSemicolon, hdrop, hlexeme⟩ : ∃ isSemicolon : Token → Bool,
      dropSemicolons ts = (ts.reverse.dropWhile isSemicolon).reverse ∧
        ∀ t, isSemicolon t = true → t.lexeme = .semicolon := by
    refine ⟨_, rfl, fun t ht => ?_⟩
    split at ht
    · assumption
    · cases ht
  refine ⟨(ts.reverse.takeWhile isSemicolon).reverse, ?_, ?_⟩
  · have hparts : ts.reverse.takeWhile isSemicolon ++ ts.reverse.dropWhile isSemicolon =
        ts.reverse :=
      List.takeWhile_append_dropWhile
    rw [← List.reverse_inj, List.reverse_append, List.reverse_reverse] at hparts
    rw [hdrop]
    exact hparts.symm
  · intro t ht
    exact hlexeme t (List.all_eq_true.1 List.all_takeWhile t (List.mem_reverse.1 ht))

/-- What comes first is not dropped, unless it is a semicolon. -/
theorem exists_dropSemicolons_cons {t : Token} (ht : t.lexeme ≠ .semicolon) (ts : List Token) :
    ∃ us more, dropSemicolons (t :: ts) = t :: us ∧ ts = us ++ more ∧
      ∀ u ∈ more, u.lexeme = .semicolon := by
  obtain ⟨more, hts, hmore⟩ := dropSemicolons_append (t :: ts)
  cases hdrop : dropSemicolons (t :: ts) with
  | nil =>
      rw [hdrop, List.nil_append] at hts
      exact absurd (hmore t (hts ▸ List.mem_cons_self)) ht
  | cons u us =>
      rw [hdrop, List.cons_append] at hts
      obtain ⟨rfl, rfl⟩ := List.cons.inj hts
      exact ⟨us, more, rfl, rfl, hmore⟩

end Exec

namespace Parser

theorem block_semicolons (scope : Scope) {ts : List Token}
    (hts : ∀ t ∈ ts, t.lexeme = .semicolon) : block scope ts = pure [] := by
  induction ts with
  | nil => exact block_nil
  | cons t ts ih =>
      obtain ⟨ht, hts⟩ := List.forall_mem_cons.1 hts
      rw [block_semicolon ht, ih hts]

theorem startsExpression_ne_semicolon {l : Lexeme} (h : startsExpression l = true) :
    l ≠ .semicolon := by
  rintro rfl
  cases h

theorem startsExpression_ne_openBrace {l : Lexeme} (h : startsExpression l = true) :
    l ≠ .openBrace := by
  rintro rfl
  cases h

/-- The tokens of one expression, with semicolons after them, are a block of one
statement. -/
theorem block_alone (scope : Scope) {t : Token} {ts more : List Token}
    (ht : startsExpression t.lexeme = true) (hmore : ∀ u ∈ more, u.lexeme = .semicolon)
    (hfind : Extent.find true (t :: ts) = .ok ⟨t :: ts, []⟩) :
    block scope (t :: ts ++ more) = (do
      let e ← expression scope (t :: ts)
      return [.expr e]) := by
  have htake : takeExpression t (t :: ts) = .ok ⟨t :: ts, []⟩ := by
    simp [takeExpression, hfind]
  have hfollowed := takeExpression_followed (separated_of_semicolons hmore) htake
  rw [List.cons_append] at hfollowed ⊢
  rw [block_expression ht, hfollowed]
  simp [block_semicolons scope hmore]

theorem block_unclosed (scope : Scope) {t : Token} {ts more : List Token} {e : Error}
    (ht : startsExpression t.lexeme = true) (hmore : ∀ u ∈ more, u.lexeme = .semicolon)
    (hfind : Extent.find true (t :: ts) = .error e) :
    block scope (t :: ts ++ more) = throw (.error e) := by
  have hfollowed := Extent.find_error_followed hmore hfind
  rw [List.cons_append] at hfollowed ⊢
  rw [block_expression ht, takeExpression, hfollowed]

end Parser

namespace Exec

variable {s : Session}

theorem declaring_map {α β : Type} (parser : Parser α) (f : α → β) :
    declaring (do let a ← parser; return f a) = (do let a ← declaring parser; return f a) := by
  funext s
  cases hparser : parser s.env with
  | ok a env =>
      simp only [declaring, bind, EStateM.bind, hparser]
      rfl
  | error e env => simp only [declaring, bind, EStateM.bind, hparser]

theorem declaring_throw {α : Type} (e : Failure) (s : Session) :
    declaring (throw e : Parser α) s = .error e s := by
  have hrestore : s.env.restore s.env.mark = s.env :=
    Environment.restore_mark (Environment.Grows.refl s.env)
  change EStateM.Result.error e { s with env := s.env.restore s.env.mark } = _
  rw [hrestore]

/-- A statement that is an expression is run by evaluating it. -/
theorem runStmts_expr (fuel : Nat) (e : Expr) :
    runStmts fuel [.expr e] = discard (evalExpr (invoke fuel maxFrames) e) := by
  funext s
  simp only [runStmts, execBlock, execStmt]
  cases heval : evalExpr (invoke fuel maxFrames) e s with
  | ok v t =>
      have hstmt : (do discard (evalExpr (invoke fuel maxFrames) e); return Signal.next) s =
          .ok .next t :=
        bind_of_ok (discard_of_ok heval)
      rw [discard_bind, bind_of_ok hstmt, discard_of_ok heval]
      rfl
  | error failure t =>
      rw [discard_of_error heval]
      exact discard_of_error (bind_of_error (bind_of_error (discard_of_error heval)))

section Cover

variable {source : String} {t : Token} {all us more : List Token} {x : Extent}

theorem parseExpr_of_rest {stop : Token} {after : List Token}
    (hlexed : (tokenize source).toExcept = .ok all) (hdrop : dropSemicolons all = t :: us)
    (hx : Extent.find true (t :: us) = .ok x) (hrest : x.rest = stop :: after) :
    parseExpr source s =
      .error (.error ((Cause.tokenAfterExpression stop.lexeme).located stop.pos)) s := by
  simp only [parseExpr, hlexed, ofExcept, pure_bind, hdrop, hx, hrest]
  rfl

theorem parseExpr_of_cover (hlexed : (tokenize source).toExcept = .ok all)
    (hdrop : dropSemicolons all = t :: us) (hx : Extent.find true (t :: us) = .ok x)
    (hrest : x.rest = []) :
    parseExpr source = declaring (Parser.expression .top (t :: us)) := by
  simp only [parseExpr, hlexed, ofExcept, pure_bind, hdrop, hx, hrest]

/-- One expression, with semicolons after it, is run by evaluating it. -/
theorem exec_of_cover (hlexed : (tokenize source).toExcept = .ok (t :: (us ++ more)))
    (hdrop : dropSemicolons (t :: (us ++ more)) = t :: us)
    (ht : Parser.startsExpression t.lexeme = true) (hmore : ∀ u ∈ more, u.lexeme = .semicolon)
    (hx : Extent.find true (t :: us) = .ok x) (hrest : x.rest = []) (fuel : Nat) :
    exec fuel source =
      parseExpr source >>= fun e => discard (evalExpr (invoke fuel maxFrames) e) := by
  rw [parseExpr_of_cover hlexed hdrop hx hrest]
  obtain ⟨inside, rest⟩ := x
  obtain rfl : rest = [] := hrest
  obtain rfl : inside = t :: us := by simpa using Extent.append_find _ _ _ hx
  simp only [exec, parse, hlexed, ofExcept, pure_bind]
  rw [← List.cons_append, Parser.block_alone .top ht hmore hx, declaring_map]
  simp only [bind_assoc, pure_bind, runStmts_expr]

end Cover

end Exec

/-- A source that begins like an expression statement, and of which an expression covers either
all tokens or none because a bracket is not closed, is evaluated and run alike: both fail by
the same failure or both succeed, and they leave the same session. -/
theorem discard_eval_eq_exec {source : String} {t : Token} {ts : List Token}
    (htokens : (tokenize source).tokens = t :: ts)
    (ht : Parser.startsExpression t.lexeme = true)
    (hcover : ∀ x, Extent.find true (Exec.dropSemicolons (t :: ts)) = .ok x → x.rest = [])
    (fuel : Nat) (s : Session) :
    discard (Exec.eval fuel source) s = Exec.exec fuel source s := by
  have heval : discard (Exec.eval fuel source) =
      Exec.parseExpr source >>= fun e => discard (evalExpr (invoke fuel maxFrames) e) :=
    discard_bind ..
  rw [heval]
  cases hlexed : (tokenize source).toExcept with
  | error e =>
      rw [Exec.exec, Exec.parse, Exec.parseExpr, hlexed]
      rfl
  | ok all =>
      obtain rfl : all = t :: ts := (Lexed.tokens_of_toExcept hlexed).symm.trans htokens
      obtain ⟨us, more, hdrop, rfl, hmore⟩ :=
        Exec.exists_dropSemicolons_cons (Parser.startsExpression_ne_semicolon ht) ts
      rw [hdrop] at hcover
      cases hfind : Extent.find true (t :: us) with
      | error e =>
          simp only [Exec.exec, Exec.parse, Exec.parseExpr, hlexed, Exec.ofExcept, pure_bind, hdrop,
            hfind]
          rw [← List.cons_append, Parser.block_unclosed .top ht hmore hfind,
            bind_of_error (Exec.declaring_throw _ s)]
          rfl
      | ok x => rw [Exec.exec_of_cover hlexed hdrop ht hmore hfind (hcover x hfind)]

theorem discard_eval_eq_exec_semicolons :
    (∃ t ts, (tokenize "x = -2 + f(x);;").tokens = t :: ts ∧
      Parser.startsExpression t.lexeme = true) ∧
      ∀ fuel s, discard (Exec.eval fuel "x = -2 + f(x);;") s =
        Exec.exec fuel "x = -2 + f(x);;" s := by
  have hstarts : (tokenize "x = -2 + f(x);;").tokens.head?.map
      (fun t => Parser.startsExpression t.lexeme) = some true := by
    decide +kernel
  have hwhole : (Extent.find true (Exec.dropSemicolons
      (tokenize "x = -2 + f(x);;").tokens)).toOption.map (·.rest.isEmpty) = some true := by
    decide +kernel
  cases htokens : (tokenize "x = -2 + f(x);;").tokens with
  | nil =>
      rw [htokens] at hstarts
      cases hstarts
  | cons t ts =>
      rw [htokens] at hstarts hwhole
      have ht : Parser.startsExpression t.lexeme = true := Option.some.inj hstarts
      refine ⟨⟨t, ts, rfl, ht⟩, discard_eval_eq_exec htokens ht ?_⟩
      intro x hx
      rw [hx] at hwhole
      simpa [Except.toOption] using hwhole

end Scriptlet
