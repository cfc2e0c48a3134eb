import Scriptlet.Proofs.Session.Braces

/-!
# A line that could be run

`Exec.evalLine` turns to statements only when a line cannot be parsed as an expression. The main
statement is `evalLine_of_exec`: a line that could be run as statements is accepted in any
case, and leaves the session that running it leaves, unless it is read as an expression that
continues braces. Then it may fail, or do something else (`evalLine_of_exec_continued`).

A line that begins like an expression statement is one, or it is refused as an expression. One
that begins with a reserved word or a separator is always refused. Only braces at the start
can be read in two ways.
-/

namespace Scriptlet

namespace Parser

variable {scope : Scope} {env env' : Environment} {tok : Token} {ts more : List Token}
  {stmts : List Stmt}

/-- How a program begins. -/
theorem Reads.starts (h : Reads scope (tok :: ts) env stmts env') :
    startsExpression tok.lexeme = true ∨ Extent.ends tok.lexeme = true ∨
      tok.lexeme = .openBrace := by
  have hends {l : Lexeme} (htok : tok.lexeme = l) (hl : Extent.ends l = true) :
      Extent.ends tok.lexeme = true := htok ▸ hl
  cases h with
  | expr ht => exact .inl ht
  | separator ht =>
      rcases ht with ht | ht
      · exact .inr (.inl (hends ht rfl))
      · exact .inr (.inl (hends ht rfl))
  | braces ht => exact .inr (.inr ht)
  | define ht => exact .inr (.inl (hends ht rfl))
  | implement ht => exact .inr (.inl (hends ht rfl))
  | cond ht => exact .inr (.inl (hends ht rfl))
  | loop ht => exact .inr (.inl (hends ht rfl))
  | each ht => exact .inr (.inl (hends ht rfl))
  | returnNow ht => exact .inr (.inl (hends ht rfl))
  | breakLoop ht => exact .inr (.inl (hends ht rfl))
  | continueLoop ht => exact .inr (.inl (hends ht rfl))

/-- A program that begins like an expression begins with one. -/
theorem Reads.expression (h : Reads scope (tok :: ts) env stmts env')
    (htok : startsExpression tok.lexeme = true) :
    ∃ x e env₁, Extent.find true (tok :: ts) = .ok x ∧
      Parser.expression scope x.inside env = .ok e env₁ := by
  have hblock := h.continues.block_eq
  rw [block_expression htok] at hblock
  cases hx : takeExpression tok (tok :: ts) with
  | error e =>
      rw [hx] at hblock
      cases hblock
  | ok x =>
      rw [hx] at hblock
      obtain ⟨e, env₁, he, _⟩ := exists_of_bind_ok hblock
      exact ⟨x, e, env₁, takeExpression_find hx, he⟩

/-- A program that begins with a brace begins with a block. -/
theorem Reads.openBrace (h : Reads scope (tok :: ts) env stmts env')
    (htok : tok.lexeme = .openBrace) :
    ∃ g inner rest env₁, Bracket.brace.group? 0 ts = some g ∧
      Reads scope g.inner env inner env₁ ∧ Reads scope g.rest env₁ rest env' ∧
      stmts = inner ++ rest := by
  have hblock := h.continues.block_eq
  rw [block_openBrace htok] at hblock
  cases hb : takeBlock (ts.getLastD tok).pos (tok :: ts) with
  | error e =>
      rw [hb] at hblock
      cases hblock
  | ok g =>
      rw [hb] at hblock
      obtain ⟨inner, env₁, hinner, hblock⟩ := exists_of_bind_ok hblock
      obtain ⟨rest, env₂, hrest, hpure⟩ := exists_of_bind_ok hblock
      cases hpure
      exact ⟨g, inner, rest, env₁, takeBlock_group hb, (reads_block ..).of_ok hinner,
        (reads_block ..).of_ok hrest, rfl⟩

theorem find_ends {operand : Bool} (h : Extent.ends tok.lexeme = true) :
    Extent.find operand (tok :: ts) = .ok ⟨[], tok :: ts⟩ := by
  rw [Extent.find_cons, if_pos h]

theorem find_openBrace (h : tok.lexeme = .openBrace) :
    Extent.find false (tok :: ts) = .ok ⟨[], tok :: ts⟩ := by
  rw [Extent.find_cons, h]
  rfl

/-- No bracket is left open in an accepted program. -/
theorem Reads.find_false (h : Reads scope (ts ++ more) env stmts env')
    (hmore : ∀ u ∈ more, u.lexeme = .semicolon) : ∃ x, Extent.find false ts = .ok x := by
  cases ts with
  | nil => exact ⟨⟨[], []⟩, by rw [Extent.find]⟩
  | cons tok ts =>
      rw [List.cons_append] at h
      rcases h.starts with hstart | hends | hbrace
      · obtain ⟨x, e, env₁, hwhole, _⟩ := h.expression hstart
        rw [Extent.find_operand (startsExpression_ne_openBrace hstart)]
        cases hx : Extent.find true (tok :: ts) with
        | ok x => exact ⟨x, rfl⟩
        | error e =>
            rw [← List.cons_append, Extent.find_error_followed hmore hx] at hwhole
            cases hwhole
      · exact ⟨_, find_ends hends⟩
      · exact ⟨_, find_openBrace hbrace⟩

/-- An expression that a program begins with is refused as a continuation of other terms, or it
adds terms to them. -/
theorem Reads.terms_false {x : Extent} (h : Reads scope (tok :: (ts ++ more)) env stmts env')
    (hmore : ∀ u ∈ more, u.lexeme = .semicolon)
    (hx : Extent.find false (tok :: ts) = .ok x) (hrest : x.rest = []) :
    Refuses (terms scope false (tok :: ts)) env ∨
      ∃ made env₁, made ≠ [] ∧ terms scope false (tok :: ts) env = .ok made env₁ := by
  rcases h.starts with hstart | hends | hbrace
  · have hinside : x.inside = tok :: ts := by
      simpa [hrest] using Extent.append_find _ _ _ hx
    rw [Extent.find_operand (startsExpression_ne_openBrace hstart)] at hx
    have hfollowed := Extent.find_followed (separated_of_semicolons hmore) hx
    obtain ⟨whole, e, env₁, hwhole, he⟩ := h.expression hstart
    rw [← List.cons_append, hfollowed] at hwhole
    cases hwhole
    dsimp only at he
    rw [hinside] at he
    obtain ⟨made, hmade, _⟩ := exists_of_expression he
    rcases terms_false_of_ok hmade with hrefused | ⟨other, hne, hother⟩
    · exact .inl hrefused
    · exact .inr ⟨other, env₁, hne, hother⟩
  · rw [find_ends hends] at hx
    cases hx
    cases hrest
  · rw [find_openBrace hbrace] at hx
    cases hx
    cases hrest

end Parser

/-- Whether a line is read as an expression that continues braces. -/
def Session.continuesBraces (s : Session) (source : String) : Bool :=
  match Exec.parseExpr source s with
  | .ok e _ => e.continuesBraces
  | .error _ _ => false

namespace Exec

variable {fuel : Nat} {source : String} {s t : Session} {tok : Token} {ts us more : List Token}

theorem continuesBraces_of_parseExpr {e : Expr} (h : parseExpr source s = .ok e t) :
    s.continuesBraces source = e.continuesBraces := by
  rw [Session.continuesBraces, h]

theorem exists_of_exec (h : exec fuel source s = .ok () t) :
    ∃ ts stmts env signal, (tokenize source).toExcept = .ok ts ∧
      Parser.Reads .top ts s.env stmts env ∧
      execBlock (invoke fuel maxFrames) fuel stmts { s with env := env } = .ok signal t := by
  rw [exec] at h
  obtain ⟨stmts, u, hparse, hrun⟩ := exists_of_bind_ok h
  obtain ⟨ts, htokens, hreads, hu⟩ := (after_parse source s).of_ok hparse
  cases hend : execBlock (invoke fuel maxFrames) fuel stmts u with
  | ok signal t' =>
      rw [runStmts, discard_of_ok hend] at hrun
      cases hrun
      exact ⟨ts, stmts, u.env, signal, htokens, hreads, hu ▸ hend⟩
  | error e t' =>
      rw [runStmts, discard_of_error hend] at hrun
      cases hrun

theorem evalLine_of_eval {v : Value} (h : eval fuel source s = .ok v t) :
    evalLine fuel source s = .ok (some v) t :=
  tryCatch_of_ok (bind_of_ok h)

/-- A line that is refused as an expression is run. -/
theorem evalLine_of_refused {e : Failure} {u : Session} (hexec : exec fuel source s = .ok () t)
    (h : parseExpr source s = .error e u) (he : e.kind? = some .parse) :
    evalLine fuel source s = .ok none t := by
  obtain rfl := (rollsBack_parseExpr source).eq h
  have heval : eval fuel source u = .error e u := bind_of_error h
  rw [evalLine_of_parse_error heval he, bind_of_ok hexec]
  rfl

theorem evalLine_of_refuses {parser : Parser Expr} (hexec : exec fuel source s = .ok () t)
    (hparse : parseExpr source = declaring parser) (h : parser.Refuses s.env) :
    evalLine fuel source s = .ok none t := by
  obtain ⟨e, env, herror, he⟩ := h
  have hfailed : parseExpr source s = .error e { s with env := env.restore s.env.mark } :=
    hparse ▸ declaring_of_error herror
  exact evalLine_of_refused hexec hfailed he

theorem evalLine_of_array {items : List Expr} {vs : List Value} {pos : Position} {u : Session}
    (hparse : parseExpr source s = .ok (.mk [.array items] pos) u)
    (hvs : evalItems (invoke fuel maxFrames) items u = .ok vs t) :
    evalLine fuel source s = .ok (some (.array vs)) t := by
  have heval : eval fuel source s = .ok (.array vs) t :=
    (bind_of_ok hparse).trans (evalExpr_array pos hvs)
  exact evalLine_of_eval heval

/-- The line begins with braces, which may be a block or an array. -/
theorem evalLine_of_braces {stmts : List Stmt} {env : Environment} {signal : Signal}
    (hexec : exec fuel source s = .ok () t) (hplain : s.continuesBraces source = false)
    (hlexed : (tokenize source).toExcept = .ok (tok :: (us ++ more)))
    (hdrop : dropSemicolons (tok :: (us ++ more)) = tok :: us)
    (hmore : ∀ u ∈ more, u.lexeme = .semicolon) (hbrace : tok.lexeme = .openBrace)
    (hreads : Parser.Reads .top (tok :: (us ++ more)) s.env stmts env)
    (hrun : execBlock (invoke fuel maxFrames) fuel stmts { s with env := env } = .ok signal t) :
    ∃ v?, evalLine fuel source s = .ok v? t := by
  obtain ⟨g', inner, rest, env₁, hg', hinner, hrest, rfl⟩ := hreads.openBrace hbrace
  obtain ⟨g, hg, rfl⟩ := Bracket.group?_before_semicolons hg' hmore
  rw [execBlock_append] at hrun
  obtain ⟨first, u, hfirst, hrun⟩ := exists_of_bind_ok hrun
  obtain ⟨x, hx⟩ := hrest.find_false hmore
  have hfind : Extent.find true (tok :: us) = .ok (x.prepend (tok :: g.inner ++ [g.close])) := by
    simp [Extent.find_cons, hbrace, Extent.ends, Bracket.opens, hg, hx, Except.map]
  cases hxrest : x.rest with
  | cons stop after =>
      exact ⟨none, evalLine_of_refused hexec (parseExpr_of_rest hlexed hdrop hfind hxrest) rfl⟩
  | nil =>
      have hparse := parseExpr_of_cover hlexed hdrop hfind hxrest
      rw [Parser.expression_array hbrace hg] at hparse
      cases hinner.readAsArray hfirst with
      | refused h => exact ⟨none, evalLine_of_refuses hexec hparse (h.bind _)⟩
      | made items hitems hsignal _ hvalues =>
          rw [hsignal] at hrun
          cases hgrest : g.rest with
          | nil =>
              have hblock := hrest.continues.block_eq
              rw [hgrest, List.nil_append, Parser.block_semicolons .top hmore] at hblock
              cases hblock
              rw [execBlock] at hrun
              cases hrun
              rw [hgrest, Parser.terms_nil] at hparse
              have hparsed : parseExpr source s =
                  .ok (.mk [.array items] tok.pos) { s with env := env } := by
                rw [hparse]
                exact declaring_of_ok (bind_of_ok hitems)
              rw [continuesBraces_of_parseExpr hparsed] at hplain
              obtain ⟨vs, hvs⟩ := hvalues hplain
              exact ⟨some (.array vs), evalLine_of_array hparsed hvs⟩
          | cons next later =>
              rw [hgrest] at hparse hrest hx
              rcases hrest.terms_false hmore hx hxrest with hrefused | ⟨made, env₂, hne, hmade⟩
              · refine ⟨none, evalLine_of_refuses hexec hparse ?_⟩
                exact Parser.refuses_bind_of_ok hitems (hrefused.bind _)
              · have hparsed : parseExpr source s =
                    .ok (.mk (.array items :: made) tok.pos) { s with env := env₂ } := by
                  rw [hparse]
                  exact declaring_of_ok ((bind_of_ok hitems).trans (bind_of_ok hmade))
                obtain ⟨term, others, rfl⟩ := List.exists_cons_of_ne_nil hne
                rw [continuesBraces_of_parseExpr hparsed] at hplain
                cases hplain

/-- The line begins like an expression statement. -/
theorem evalLine_of_startsExpression {stmts : List Stmt} {env : Environment}
    (hexec : exec fuel source s = .ok () t)
    (hlexed : (tokenize source).toExcept = .ok (tok :: (us ++ more)))
    (hdrop : dropSemicolons (tok :: (us ++ more)) = tok :: us)
    (hmore : ∀ u ∈ more, u.lexeme = .semicolon)
    (hstart : Parser.startsExpression tok.lexeme = true)
    (hreads : Parser.Reads .top (tok :: (us ++ more)) s.env stmts env) :
    ∃ v?, evalLine fuel source s = .ok v? t := by
  cases hx : Extent.find true (tok :: us) with
  | error e =>
      obtain ⟨x, _, _, hwhole, _⟩ := hreads.expression hstart
      rw [← List.cons_append, Extent.find_error_followed hmore hx] at hwhole
      cases hwhole
  | ok x =>
      cases hrest : x.rest with
      | nil =>
          rw [exec_of_cover hlexed hdrop hstart hmore hx hrest] at hexec
          obtain ⟨e, u, hparse, hdiscard⟩ := exists_of_bind_ok hexec
          obtain ⟨v, heval⟩ := exists_of_discard_ok hdiscard
          exact ⟨some v, evalLine_of_eval ((bind_of_ok hparse).trans heval)⟩
      | cons stop after =>
          exact ⟨none, evalLine_of_refused hexec (parseExpr_of_rest hlexed hdrop hx hrest) rfl⟩

end Exec

/-- A line that could be run as statements is accepted, and leaves the session that running it
would leave, unless it is read as an expression in which braces that stand where a statement
would begin are followed by further terms. -/
theorem evalLine_of_exec {fuel : Nat} {source : String} {s t : Session}
    (hexec : Exec.exec fuel source s = .ok () t) (hplain : s.continuesBraces source = false) :
    ∃ v?, Exec.evalLine fuel source s = .ok v? t := by
  obtain ⟨ts, stmts, env, signal, hlexed, hreads, hrun⟩ := Exec.exists_of_exec hexec
  obtain ⟨more, hts, hmore⟩ := Exec.dropSemicolons_append ts
  cases hdrop : Exec.dropSemicolons ts with
  | nil =>
      have hempty : Exec.parseExpr source s = .error (.error Cause.emptyExpression.nowhere) s := by
        simp only [Exec.parseExpr, hlexed, Exec.ofExcept, pure_bind, hdrop]
        rfl
      exact ⟨none, Exec.evalLine_of_refused hexec hempty rfl⟩
  | cons tok us =>
      rw [hdrop, List.cons_append] at hts
      subst hts
      rcases hreads.starts with hstart | hends | hbrace
      · exact Exec.evalLine_of_startsExpression hexec hlexed hdrop hmore hstart hreads
      · exact ⟨none, Exec.evalLine_of_refused hexec
          (Exec.parseExpr_of_rest hlexed hdrop (Parser.find_ends hends) rfl) rfl⟩
      · exact Exec.evalLine_of_braces hexec hplain hlexed hdrop hmore hbrace hreads hrun

/-- The integer that an action leaves in a global. -/
def Exec.leaves? {α : Type} (x : Exec α) (s : Session) (name : String) : Option Int64 :=
  match x s with
  | .ok _ t =>
      match t.get? name with
      | some (.int n) => some n
      | _ => none
  | .error _ _ => none

theorem Exec.exists_of_leaves? {α : Type} {x : Exec α} {s : Session} {name : String} {n : Int64}
    (h : x.leaves? s name = some n) : ∃ a t, x s = .ok a t ∧ t.get? name = some (.int n) := by
  unfold leaves? at h
  split at h
  · rename_i a t hx
    split at h
    · rename_i n' hname
      cases h
      exact ⟨a, t, hx, hname⟩
    · cases h
  · cases h

/-- A block in a block, which is read as an array in an array. -/
theorem evalLine_of_exec_nested :
    Session.empty.continuesBraces "\x7b x = 1, \x7b y = x, -2 \x7d \x7d;" = false ∧
      ∃ t, Exec.exec 0 "\x7b x = 1, \x7b y = x, -2 \x7d \x7d;" Session.empty = .ok () t ∧
        ∃ v?, Exec.evalLine 0 "\x7b x = 1, \x7b y = x, -2 \x7d \x7d;" Session.empty = .ok v? t := by
  have hplain : Session.empty.continuesBraces "\x7b x = 1, \x7b y = x, -2 \x7d \x7d;" = false := by
    decide +kernel
  have hleaves : (Exec.exec 0 "\x7b x = 1, \x7b y = x, -2 \x7d \x7d;").leaves? Session.empty "y" =
      some 1 := by
    decide +kernel
  obtain ⟨_, t, hexec, _⟩ := Exec.exists_of_leaves? hleaves
  exact ⟨hplain, t, hexec, evalLine_of_exec hexec hplain⟩

/-- Braces that further terms continue make a difference. The first line runs, but it is no
expression with a value. The second has one, and leaves other globals than it does when run. -/
theorem evalLine_of_exec_continued :
    (∃ t, Exec.exec 0 "\x7b y = 1 \x7d 2" Session.empty = .ok () t ∧
      ∀ v? u, Exec.evalLine 0 "\x7b y = 1 \x7d 2" Session.empty ≠ .ok v? u) ∧
    ∃ t v? u, Exec.exec 0 "\x7b y = 1 \x7d - 5 + (z = y)" Session.empty = .ok () t ∧
      Exec.evalLine 0 "\x7b y = 1 \x7d - 5 + (z = y)" Session.empty = .ok v? u ∧
      t.get? "z" = some (.int 1) ∧ u.get? "z" = some (.int 0) := by
  constructor
  · have hexec : (Exec.exec 0 "\x7b y = 1 \x7d 2").leaves? Session.empty "y" = some 1 := by
      decide +kernel
    have hline : (Exec.evalLine 0 "\x7b y = 1 \x7d 2").failureKind? Session.empty =
        some .invalidExpression := by
      decide +kernel
    obtain ⟨_, t, ht, _⟩ := Exec.exists_of_leaves? hexec
    obtain ⟨e, u, hu, _⟩ := Exec.exists_of_failureKind? hline
    refine ⟨t, ht, fun v? u' hu' => ?_⟩
    rw [hu] at hu'
    cases hu'
  · have hexec : (Exec.exec 0 "\x7b y = 1 \x7d - 5 + (z = y)").leaves? Session.empty "z" =
        some 1 := by
      decide +kernel
    have hline : (Exec.evalLine 0 "\x7b y = 1 \x7d - 5 + (z = y)").leaves? Session.empty "z" =
        some 0 := by
      decide +kernel
    obtain ⟨_, t, ht, hz⟩ := Exec.exists_of_leaves? hexec
    obtain ⟨v?, u, hu, hz'⟩ := Exec.exists_of_leaves? hline
    exact ⟨t, v?, u, ht, hu, hz, hz'⟩

end Scriptlet
