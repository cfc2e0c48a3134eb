import Scriptlet.Proofs.Session.Joining
import Scriptlet.Proofs.Session.Moving
import Scriptlet.Proofs.Token.Respelling

/-!
# Layout

Two sources whose tokens say the same may differ in comments, blanks, line ends and in the
control characters inside their words. Then they do the same, and only the places differ
that are kept in programs and in errors. The main statement is `layout_changes_places_only`.

Both sources are compared with the tokens that they have in common once places and lengths
are taken away. That is a way to recast programs without any new globals, so all indices are
in range and every session will do.
-/

namespace Scriptlet

/-- The tokens of a source without their places and lengths, and the programs read from
them. -/
def layoutless : Recast :=
  unplacing fun _ => 0

namespace layoutless

theorem map_token_eq {ts us : List Token} (h : us.map (·.lexeme) = ts.map (·.lexeme)) :
    us.map layoutless.token = ts.map layoutless.token := by
  have htoken : layoutless.token = (⟨·, .start, 0⟩) ∘ Token.lexeme := rfl
  rw [htoken, ← List.map_map, ← List.map_map, h]

theorem reaches (k : Nat) (r : Reference) : layoutless.Reaches k r := by
  cases r with
  | function i => trivial
  | cell slot =>
      cases slot with
      | global i name => exact .inl ⟨rfl, rfl⟩
      | _ => trivial

theorem ranged (s : Session) : layoutless.Ranged s.env.globals.length s := by
  refine ⟨rfl, fun f _ => ?_⟩
  cases f.body with
  | native run => trivial
  | script stmts => exact fun r _ => reaches _ r

theorem failure_of_same {e e' : Failure} (h : layoutless.Same e e') : e'.unplaced = e.unplaced := by
  rcases h with rfl | rfl
  · rfl
  · rw [layoutless, unplacing.failure_eq]
    cases e <;> simp [Failure.unplaced, Error.unplaced, Function.comp_def]

end layoutless

namespace Exec

variable {α : Type} {s : Session} {source : String} {ts us : List Token}

/-- Two actions that do the same once layout is taken away. -/
theorem Moves.unplacedResult_eq {x y z : Exec α} (hx : Moves layoutless id x z s)
    (hy : Moves layoutless id y z s) : unplacedResult (x s) = unplacedResult (y s) := by
  unfold Moves After at hx hy
  simp only [layoutless, unplacing.session_eq] at hx hy
  cases hxs : x s with
  | ok a t =>
      rw [hxs] at hx
      cases hys : y s with
      | ok b u =>
          rw [hys] at hy
          exact hx.symm.trans hy
      | error e u =>
          rw [hys] at hy
          obtain ⟨e', -, hz⟩ := hy
          cases hx.symm.trans hz
  | error e t =>
      rw [hxs] at hx
      obtain ⟨e', he, hz⟩ := hx
      cases hys : y s with
      | ok b u =>
          rw [hys] at hy
          cases hy.symm.trans hz
      | error d u =>
          rw [hys] at hy
          obtain ⟨d', hd, hz'⟩ := hy
          obtain ⟨hsame, hsession⟩ := (EStateM.Result.error.injEq ..).mp (hz.symm.trans hz')
          subst hsame
          exact congrArg₂ EStateM.Result.error
            ((layoutless.failure_of_same he).symm.trans (layoutless.failure_of_same hd)) hsession

theorem moves_parse_layoutless (h : (tokenize source).toExcept = .ok ts) :
    Moves layoutless layoutless.block (parse source) (readBlock (ts.map layoutless.token)) s := by
  rw [parse_of_tokens h]
  exact moves_readBlock rfl (unplacing.fresh ts)

theorem moves_parseExpr_layoutless (h : (tokenize source).toExcept = .ok ts) :
    Moves layoutless layoutless.expr (parseExpr source) (readExpr (ts.map layoutless.token)) s := by
  rw [parseExpr_of_tokens h]
  exact moves_readExpr rfl (unplacing.fresh ts)

theorem moves_load_layoutless (h : (tokenize source).toExcept = .ok ts) :
    Moves layoutless id (load source)
      (do
        let stmts ← readBlock (ts.map layoutless.token)
        modify fun s => { s with program := s.program ++ stmts }) s :=
  (moves_parse_layoutless h).bind fun stmts _ _ => moves_extend stmts

theorem moves_exec_layoutless (h : (tokenize source).toExcept = .ok ts) (fuel : Nat) :
    Moves layoutless id (exec fuel source)
      (readBlock (ts.map layoutless.token) >>= runStmts fuel) s :=
  (moves_parse_layoutless h).bind fun _ t _ =>
    moves_runStmts (layoutless.ranged t) fuel fun r _ => layoutless.reaches _ r

theorem moves_eval_layoutless (h : (tokenize source).toExcept = .ok ts) (fuel : Nat) :
    Moves layoutless id (eval fuel source)
      (readExpr (ts.map layoutless.token) >>= evalExpr (invoke fuel maxFrames)) s :=
  (moves_parseExpr_layoutless h).bind fun _ t _ =>
    moves_evalExpr (layoutless.ranged t) fuel fun r _ => layoutless.reaches _ r

end Exec

open Exec in
/-- Sources whose tokens say the same do the same up to places, in every session. And the
tokens of a source may be spelled anew, with single spaces between them. -/
theorem layout_changes_places_only {source : String} {ts : List Token}
    (h : (tokenize source).toExcept = .ok ts) :
    (∀ other us, (tokenize other).toExcept = .ok us → us.map Token.said = ts.map Token.said →
      ∀ s, unplacedResult (load other s) = unplacedResult (load source s) ∧
        ∀ fuel, unplacedResult (exec fuel other s) = unplacedResult (exec fuel source s) ∧
          unplacedResult (eval fuel other s) = unplacedResult (eval fuel source s)) ∧
    ∃ us, (tokenize (Lexeme.spaced (ts.map (·.lexeme)))).toExcept = .ok us ∧
      us.map (·.lexeme) = ts.map (·.lexeme) := by
  refine ⟨fun other us hother hsaid s => ?_, tokenize_spaced h⟩
  have hlexemes := Lexer.lexemes_eq (spells_of_toExcept h) (spells_of_toExcept hother) hsaid
  have htokens := layoutless.map_token_eq hlexemes
  refine ⟨?_, fun fuel => ⟨?_, ?_⟩⟩
  · have hload := moves_load_layoutless (s := s) hother
    rw [htokens] at hload
    exact hload.unplacedResult_eq (moves_load_layoutless h)
  · have hexec := moves_exec_layoutless (s := s) hother fuel
    rw [htokens] at hexec
    exact hexec.unplacedResult_eq (moves_exec_layoutless h fuel)
  · have heval := moves_eval_layoutless (s := s) hother fuel
    rw [htokens] at heval
    exact heval.unplacedResult_eq (moves_eval_layoutless h fuel)

/-- A program over several lines, with a comment and a string that goes on on the next line. -/
def spread : String :=
  "x = 1_0.5 # a number\nIF x >= 2 \x7b y = \"a\nb\"; \x7d"

/-- The same tokens on as few lines as possible, with a control character in a word. -/
def packed : String :=
  "x=1\x01_0.5 IF x>=2\x7by=\"a\nb\";\x7d"

theorem layout_changes_places_only_packed :
    (tokenize spread).toExcept = .ok (tokenize spread).tokens ∧
      (tokenize packed).toExcept = .ok (tokenize packed).tokens ∧
      (tokenize packed).tokens.map Token.said = (tokenize spread).tokens.map Token.said ∧
      Exec.unplacedResult (Exec.exec 10 packed Session.empty) =
        Exec.unplacedResult (Exec.exec 10 spread Session.empty) := by
  have hspread : (tokenize spread).toExcept = .ok (tokenize spread).tokens :=
    Lexed.toExcept_of_closed (by decide +kernel)
  have hpacked : (tokenize packed).toExcept = .ok (tokenize packed).tokens :=
    Lexed.toExcept_of_closed (by decide +kernel)
  have hsaid : (tokenize packed).tokens.map Token.said =
      (tokenize spread).tokens.map Token.said := by
    decide +kernel
  obtain ⟨halike, -⟩ := layout_changes_places_only hspread
  exact ⟨hspread, hpacked, hsaid, ((halike _ _ hpacked hsaid _).2 10).1⟩

end Scriptlet
