import Scriptlet.Proofs.Parsing.Growth
import Scriptlet.Proofs.Session.History

/-!
# A source that cannot be parsed has no effect

Parsing declares names as it meets them, and it may fail after any of them. Then the
declarations are undone. The main statement is `unparsed_source_has_no_effect`: the
session is the same as before, in all that it holds. It rests on what parsing can do to
the declared names, which is to let them grow, and on growth being undone exactly.
-/

namespace Scriptlet

namespace Exec

variable {α : Type}

/-- Whether an action that fails leaves the session as it was. -/
def RollsBack (x : Exec α) : Prop :=
  ∀ s, After x s (fun _ _ => True) fun _ t => t = s

theorem RollsBack.eq {x : Exec α} {s t : Session} {e : Failure} (h : x.RollsBack)
    (hx : x s = .error e t) : t = s :=
  (h s).of_error hx

/-- An action may come after a computation that needs no session. -/
theorem rollsBack_ofExcept_bind {β : Type} (x : Except Error β) {f : β → Exec α}
    (hf : ∀ b, (f b).RollsBack) : (ofExcept x >>= f).RollsBack := by
  intro s
  rw [after_bind]
  cases x with
  | ok b => exact hf b s
  | error e => rfl

theorem rollsBack_fail (e : Error) : (fail e : Exec α).RollsBack :=
  fun _ => rfl

theorem declaring_of_ok {parser : Parser α} {s : Session} {a : α} {env : Environment}
    (h : parser s.env = .ok a env) : declaring parser s = .ok a { s with env := env } := by
  rw [declaring, h]

theorem declaring_of_error {parser : Parser α} {s : Session} {e : Failure} {env : Environment}
    (h : parser s.env = .error e env) :
    declaring parser s = .error e { s with env := env.restore s.env.mark } := by
  rw [declaring, h]

/-- What was declared before the failure is undone. -/
theorem rollsBack_declaring {parser : Parser α} (h : parser.Grows) :
    (declaring parser).RollsBack := by
  intro s
  have hgrows := h s.env
  unfold After at hgrows ⊢
  cases hp : parser s.env with
  | ok a env =>
      rw [declaring_of_ok hp]
      trivial
  | error e env =>
      rw [hp] at hgrows
      have hrestore : env.restore s.env.mark = s.env := Environment.restore_mark hgrows
      rw [declaring_of_error hp, hrestore]

theorem rollsBack_parse (source : String) : (parse source).RollsBack :=
  rollsBack_ofExcept_bind _ fun ts => rollsBack_declaring (Parser.grows_block .top ts)

theorem rollsBack_load (source : String) : (load source).RollsBack := by
  intro s
  rw [load, after_bind]
  exact (rollsBack_parse source s).mono (fun _ _ _ => trivial) fun _ _ h => h

theorem rollsBack_parseExpr (source : String) : (parseExpr source).RollsBack := by
  refine rollsBack_ofExcept_bind _ fun ts => ?_
  split
  · exact rollsBack_fail _
  · refine rollsBack_ofExcept_bind _ fun extent => ?_
    split
    · exact rollsBack_declaring (Parser.grows_expression .top _)
    · exact rollsBack_fail _

end Exec

/-- In every session that a host can come to, a source that fails before anything of it is
run leaves the session as it was, and no call is in progress in it. -/
theorem unparsed_source_has_no_effect {accepted : List String} {s : Session}
    (hs : Reachable (fun _ => True) accepted s) (source : String) (fuel : Nat) :
    s.frames = [] ∧
      (∀ e t, Exec.load source s = .error e t → t = s) ∧
      (∀ e t, Exec.parse source s = .error e t → Exec.exec fuel source s = .error e s) ∧
      ∀ e t, Exec.parseExpr source s = .error e t → Exec.eval fuel source s = .error e s := by
  refine ⟨hs.idle, ?_, ?_, ?_⟩
  · intro e t h
    exact (Exec.rollsBack_load source).eq h
  · intro e t h
    obtain rfl := (Exec.rollsBack_parse source).eq h
    exact bind_of_error h
  · intro e t h
    obtain rfl := (Exec.rollsBack_parseExpr source).eq h
    exact bind_of_error h

/-- A session with a global and a function of the host. -/
def hostedSession : Session :=
  (Session.empty.set "x" (.int 1)).provide "f" ["a"] Library.str

/-- The source declares `g`, replaces the body of `f` and declares `y` before it fails. -/
theorem unparsed_source_has_no_effect_hosted :
    Reachable (fun _ => True) [] hostedSession ∧
      hostedSession.accepts "DEF g; IMP f \x7b y = 1; \x7d DEF g;" = false ∧
      ∀ e t, Exec.load "DEF g; IMP f \x7b y = 1; \x7d DEF g;" hostedSession = .error e t →
        t = hostedSession := by
  have hset : Reachable (fun _ => True) [] (Session.empty.set "x" (.int 1)) :=
    @Reachable.answered _ _ _ _ (.set "x" (.int 1)) 0 _ .start trivial rfl
  have hhosted : Reachable (fun _ => True) [] hostedSession :=
    @Reachable.answered _ _ _ _ (.provide "f" ["a"] Library.str) 0 _ hset trivial rfl
  exact ⟨hhosted, by decide +kernel, (unparsed_source_has_no_effect hhosted _ 0).2.1⟩

end Scriptlet
