import Scriptlet.Proofs.Parsing.Balance
import Scriptlet.Proofs.Parsing.Locality
import Scriptlet.Proofs.Parsing.Places
import Scriptlet.Proofs.Session.Code
import Scriptlet.Proofs.Token.Lines

/-!
# Loading sources one by one or at once

Sources may be loaded one after the other or as a single text with a semicolon on a line
between them, and a source may stand between braces on lines of their own. The session is the
same up to the places that its code carries. The main statement is `load_joined`.

Its proof compares tokens. A line feed separates the sources (`tokenize_joined`), accepted
tokens are parsed without a look at what follows them (`Parser.Reads.continues`), and their
braces are closed (`Parser.Reads.braced`). All that is left are places, which parsing only
copies (`Parser.unplaces_block`).
-/

namespace Scriptlet

namespace Exec

/-- What comes of loading a source, by what was read of it. -/
def loadLexed (l : Lexed) (s : Session) : EStateM.Result Failure Session Unit :=
  match l.error? with
  | some error => .error (.error error) s
  | none =>
      match Parser.block .top l.tokens s.env with
      | .ok stmts env => .ok () { s with env := env, program := s.program ++ stmts }
      | .error e _ => .error e s

theorem load_eq (source : String) (s : Session) :
    load source s = loadLexed (tokenize source) s := by
  unfold load parse loadLexed Lexed.toExcept
  cases (tokenize source).error? with
  | some error => rfl
  | none =>
      dsimp only
      rw [bind_assoc]
      change (declaring (Parser.block .top (tokenize source).tokens) >>= _) s = _
      have hrollback := rollsBack_declaring (Parser.grows_block .top (tokenize source).tokens) s
      unfold After at hrollback
      cases hblock : Parser.block .top (tokenize source).tokens s.env with
      | ok stmts env =>
          rw [bind_of_ok (declaring_of_ok hblock)]
          rfl
      | error e env =>
          have hdeclaring := declaring_of_error hblock
          rw [hdeclaring] at hrollback
          rw [bind_of_error hdeclaring]
          exact congrArg _ hrollback

/-- The outcome without places. -/
def unplacedResult {α : Type} :
    EStateM.Result Failure Session α → EStateM.Result Failure Session α
  | .ok a t => .ok a t.unplaced
  | .error e t => .error e.unplaced t.unplaced

/-- Loading only copies places. -/
theorem loadLexed_unplaced (l : Lexed) (s : Session) :
    loadLexed l.unplaced s.unplaced = unplacedResult (loadLexed l s) := by
  obtain ⟨ts, error?⟩ := l
  cases error? with
  | some error => rfl
  | none =>
      have hblock := Parser.unplaces_block .top ts s.env
      simp only [loadLexed, Lexed.unplaced, Session.unplaced, Option.map_none, hblock]
      cases Parser.block .top ts s.env with
      | ok stmts env =>
          simp only [Parser.unplacedOutcome, unplacedResult, Session.unplaced,
            unplacedBlock_append]
      | error e env => rfl

/-- Sources that are read alike are loaded alike. -/
theorem unplacedResult_load {source : String} {l : Lexed}
    (h : (tokenize source).unplaced = l.unplaced) (s : Session) :
    unplacedResult (load source s) = unplacedResult (loadLexed l s) := by
  rw [load_eq, ← loadLexed_unplaced, h, loadLexed_unplaced]

variable {source : String} {s t : Session}

theorem load_eq_ok (h : load source s = .ok () t) :
    ∃ stmts, (tokenize source).error? = none ∧
      Parser.Reads .top (tokenize source).tokens s.env stmts t.env ∧
      t = { s with env := t.env, program := s.program ++ stmts } := by
  rw [load_eq, loadLexed] at h
  split at h
  · cases h
  · rename_i herror
    split at h
    · rename_i stmts env hblock
      cases h
      have hreads := Parser.reads_block .top (tokenize source).tokens s.env
      exact ⟨stmts, herror, hreads.of_ok hblock, rfl⟩
    · cases h

theorem load_eq_error {e : Failure} (h : load source s = .error e t) :
    (∃ error, e = .error error) ∧ t = s := by
  rw [load_eq, loadLexed] at h
  split at h
  · cases h
    exact ⟨⟨_, rfl⟩, rfl⟩
  · split at h
    · cases h
    · rename_i hblock
      cases h
      have hreads := Parser.reads_block .top (tokenize source).tokens s.env
      exact ⟨hreads.of_error hblock, rfl⟩

/-- After accepted tokens and a semicolon, loading goes on from the session that they lead to.
A failure comes back to the session before both. -/
theorem loadLexed_joined {ts : List Token} {stmts : List Stmt} {env : Environment}
    (hreads : Parser.Reads .top ts s.env stmts env) (l : Lexed) {semicolon : Token}
    (hsemicolon : semicolon.lexeme = .semicolon) :
    loadLexed ((l.cons semicolon).append ts) s =
      match loadLexed l { s with env := env, program := s.program ++ stmts } with
      | .ok () u => .ok () u
      | .error e _ => .error e s := by
  obtain ⟨us, error?⟩ := l
  cases error? with
  | some error => rfl
  | none =>
      have hseparated : Separated (semicolon :: us) := by
        intro t ht
        cases ht
        exact hsemicolon
      have hblock : Parser.block .top (ts ++ semicolon :: us) s.env =
          (do let rest ← Parser.block .top us; return stmts ++ rest) env := by
        rw [hreads.continues _ hseparated, Parser.block_semicolon hsemicolon]
      simp only [loadLexed, Lexed.cons, Lexed.append, hblock]
      cases hus : Parser.block .top us env with
      | ok rest env' =>
          rw [bind_of_ok hus]
          simp only [List.append_assoc]
          rfl
      | error e env' => rw [bind_of_error hus]

theorem loadLexed_braced {ts : List Token} {stmts : List Stmt} {env : Environment}
    (hreads : Parser.Reads .top ts s.env stmts env) {opening closing : Token}
    (hopening : opening.lexeme = .openBrace) (hclosing : closing.lexeme = .closeBrace) :
    loadLexed ⟨opening :: (ts ++ [closing]), none⟩ s =
      .ok () { s with env := env, program := s.program ++ stmts } := by
  have hbraced := hreads.braced hopening hclosing
  simp only [loadLexed, hbraced.continues.block_eq]

/-- What comes of loading two sources at once, the first of which is accepted. -/
theorem unplacedResult_load_joined {a : String} (ha : load a s = .ok () t) (b : String) :
    unplacedResult (load (a ++ "\n;\n" ++ b) s) =
      unplacedResult
        (match load b t with
        | .ok () u => .ok () u
        | .error e _ => .error e s) := by
  obtain ⟨stmts, herror, hreads, hsame⟩ := load_eq_ok ha
  rw [unplacedResult_load (tokenize_joined herror b), loadLexed_joined hreads _ rfl, ← hsame,
    load_eq]

theorem exists_of_unplacedResult_ok {r : EStateM.Result Failure Session Unit}
    (h : unplacedResult r = unplacedResult (.ok () t)) :
    ∃ u, r = .ok () u ∧ u.unplaced = t.unplaced := by
  cases r with
  | ok _ u => exact ⟨u, rfl, ((EStateM.Result.ok.injEq ..).mp h).2⟩
  | error e u => cases h

theorem exists_of_unplacedResult_error {r : EStateM.Result Failure Session Unit} {error : Error}
    (h : unplacedResult r = unplacedResult (.error (.error error) t)) :
    ∃ error' u, r = .error (.error error') u ∧ error'.cause = error.cause := by
  cases r with
  | ok _ u => cases h
  | error e u =>
      have he := ((EStateM.Result.error.injEq ..).mp h).1
      cases e with
      | error error' =>
          have hunplaced : error'.unplaced = error.unplaced := (Failure.error.injEq ..).mp he
          have hcause : error'.unplaced.cause = error.unplaced.cause :=
            congrArg Error.cause hunplaced
          exact ⟨error', u, rfl, hcause⟩
      | _ => cases he

end Exec

/-- A source that is accepted may be loaded together with the next one. The session is the
same up to places, and so is the cause if the next one is refused. It may stand between
braces as well. -/
theorem load_joined {a : String} {s t : Session} (ha : Exec.load a s = .ok () t) :
    (∀ b u, Exec.load b t = .ok () u →
      ∃ u', Exec.load (a ++ "\n;\n" ++ b) s = .ok () u' ∧ u'.unplaced = u.unplaced) ∧
    (∀ b e u, Exec.load b t = .error e u →
      ∃ error error', e = .error error ∧
        Exec.load (a ++ "\n;\n" ++ b) s = .error (.error error') s ∧
        error'.cause = error.cause) ∧
    ∃ t', Exec.load ("\x7b\n" ++ a ++ "\n\x7d") s = .ok () t' ∧ t'.unplaced = t.unplaced := by
  refine ⟨fun b u hb => ?_, fun b e u hb => ?_, ?_⟩
  · have hjoined := Exec.unplacedResult_load_joined ha b
    rw [hb] at hjoined
    exact Exec.exists_of_unplacedResult_ok hjoined
  · have hjoined := Exec.unplacedResult_load_joined ha b
    rw [hb] at hjoined
    obtain ⟨⟨error, rfl⟩, -⟩ := Exec.load_eq_error hb
    obtain ⟨error', v, hload, hcause⟩ := Exec.exists_of_unplacedResult_error hjoined
    -- The comparison is up to places, but a refused source leaves the session itself.
    obtain ⟨-, rfl⟩ := Exec.load_eq_error hload
    exact ⟨error, error', rfl, hload, hcause⟩
  · obtain ⟨stmts, herror, hreads, hsame⟩ := Exec.load_eq_ok ha
    have hbraced := Exec.unplacedResult_load (tokenize_braced herror) s
    rw [Exec.loadLexed_braced hreads rfl rfl, ← hsame] at hbraced
    exact Exec.exists_of_unplacedResult_ok hbraced

/-- A function that makes an array, and a call of it that ends in a comment. -/
def pairs : String :=
  "DEF f x; IMP f \x7b f = \x7bx, 1\x7d; \x7d f(2) # no semicolon"

theorem load_joined_pairs :
    ∃ t, Exec.load pairs Session.empty = .ok () t ∧
      (∃ u u', Exec.load "y = f(3)" t = .ok () u ∧
        Exec.load (pairs ++ "\n;\n" ++ "y = f(3)") Session.empty = .ok () u' ∧
        u'.unplaced = u.unplaced) ∧
      ∃ error error', Exec.load "y = g(3)" t = .error (.error error) t ∧
        Exec.load (pairs ++ "\n;\n" ++ "y = g(3)") Session.empty =
          .error (.error error') Session.empty ∧
        error'.cause = error.cause := by
  have ha := Session.load_of_accepts (show Session.empty.accepts pairs = true by decide +kernel)
  have hf := Session.load_of_accepts
    (show (Session.empty.loaded pairs).accepts "y = f(3)" = true by decide +kernel)
  obtain ⟨e, hg⟩ := Session.load_of_not_accepts
    (show (Session.empty.loaded pairs).accepts "y = g(3)" = false by decide +kernel)
  obtain ⟨hok, herror, -⟩ := load_joined ha
  obtain ⟨u', hu', hsame⟩ := hok _ _ hf
  obtain ⟨error, error', rfl, hload, hcause⟩ := herror _ _ _ hg
  exact ⟨_, ha, ⟨_, u', hf, hu', hsame⟩, error, error', hg, hload, hcause⟩

end Scriptlet
