import Scriptlet.Proofs.Session.Code

/-!
# A line is read as an expression first

`Exec.evalLine` tries a line as an expression and turns to statements when the attempt
fails with an error of parsing. Nothing is done twice by this, because such an error never
comes from running: it is met before anything was run, and what was declared until then
has been undone. The errors of running are of other kinds, in calls however deep, as long as
this holds of the functions that the host provides (`parseFree_invoke`).
-/

namespace Scriptlet

/-- Whether running a body never fails with an error of parsing, as far as this is up to the
host. -/
def Body.ParseFree : Body → Prop
  | .script _ => True
  | .native run => run.ParseFree

theorem upheld_parseFree (s₀ : Session) :
    Upheld s₀.Kept (fun e => e.kind? ≠ some .parse) fun _ => True where
  cell _ _ _ := by simp [Failure.kind?]
  setCell v hs _ _ := hs.trans (Session.kept_setCell _ _ v)
  error e he := by simpa [Failure.kind?] using he

/-- A call fails with no error of parsing. The induction is on how deep calls may be
nested. -/
theorem parseFree_invoke (fuel room : Nat) {s₀ : Session} (hs₀ : s₀.env.Bodies Body.ParseFree) :
    (invoke fuel room).Upholds s₀.Kept (fun e => e.kind? ≠ some .parse) fun _ => True := by
  intro index sources pos? _ hsources
  induction room generalizing index sources pos? s₀ with
  | zero =>
      refine upholds_callFunction (upheld_parseFree s₀) pos? hsources (by simp [Failure.kind?]) ?_
      intro f frame t hroom _ _ _
      exact Exec.Upholds.throw (by simp [Failure.kind?])
  | succ below ih =>
      refine upholds_callFunction (upheld_parseFree s₀) pos? hsources (by simp [Failure.kind?]) ?_
      intro f frame t hroom hf hserves ht
      have hbodies : (t.enter frame hroom).env.Bodies Body.ParseFree := ht.bodies hs₀
      have hfree := hs₀ f (List.mem_of_getElem? hf)
      refine upholds_runBody (upheld_parseFree _) ?_ ?_ ?_
      · intro index' sources' pos?' _ hsources'
        exact ih hbodies index' sources' pos?' hsources'
      · intro stmts _
        exact ⟨fun _ _ => trivial, fun _ => by simp [Failure.kind?]⟩
      · intro run e hrun he
        rw [hrun] at hfree
        exact hfree frame hserves.args e he

namespace Exec

variable {s t : Session}

/-- An expression that fails with an error of parsing was not run at all. -/
theorem eval_parse_error {fuel : Nat} {source : String} {e : Failure}
    (hs : s.env.Bodies Body.ParseFree) (h : eval fuel source s = .error e t)
    (he : e.kind? = some .parse) : parseExpr source s = .error e t := by
  rw [eval] at h
  have hparsed := after_parseExpr source s
  cases hparse : parseExpr source s with
  | error e' t' =>
      rw [bind_of_error hparse] at h
      cases h
      rfl
  | ok expr u =>
      have hu : u.env.Bodies Body.ParseFree := hs.of_functions_eq (hparsed.of_ok hparse).1
      have hrun := upholds_evalExpr (upheld_parseFree u) (parseFree_invoke fuel maxFrames hu)
        (e := expr) (fun _ _ => trivial) u (Session.Kept.refl u)
      rw [bind_of_ok hparse] at h
      exact absurd he (hrun.of_error h).2

/-- The kind of the error that an action fails with, if it does. -/
def failureKind? {α : Type} (x : Exec α) (s : Session) : Option ErrorKind :=
  match x s with
  | .ok _ _ => none
  | .error e _ => e.kind?

theorem failureKind?_of_error {α : Type} {x : Exec α} {e : Failure} (h : x s = .error e t) :
    x.failureKind? s = e.kind? := by
  simp [failureKind?, h]

theorem exists_of_failureKind? {α : Type} {x : Exec α} {kind : ErrorKind}
    (h : x.failureKind? s = some kind) : ∃ e t, x s = .error e t ∧ e.kind? = some kind := by
  unfold failureKind? at h
  split at h
  · cases h
  · rename_i e t hx
    exact ⟨e, t, hx, h⟩

/-- A line is run as statements in the session that the attempt to evaluate it has left. -/
theorem evalLine_of_parse_error {fuel : Nat} {source : String} {e : Failure}
    (h : eval fuel source s = .error e t) (he : e.kind? = some .parse) :
    evalLine fuel source s = (do exec fuel source; return none : Exec (Option Value)) t := by
  have hsome : (some <$> eval fuel source) s = .error e t := bind_of_error h
  rw [evalLine, tryCatch_of_error hsome, if_pos he]

theorem evalLine_of_failureKind? {fuel : Nat} {source : String}
    (h : (eval fuel source).failureKind? s ≠ some .parse) :
    evalLine fuel source s = (some <$> eval fuel source) s := by
  rw [evalLine]
  cases hend : eval fuel source s with
  | ok v t =>
      have hsome : (some <$> eval fuel source) s = .ok (some v) t := bind_of_ok hend
      rw [tryCatch_of_ok hsome, hsome]
  | error e t =>
      have hsome : (some <$> eval fuel source) s = .error e t := bind_of_error hend
      rw [failureKind?_of_error hend] at h
      rw [tryCatch_of_error hsome, if_neg h, hsome]
      rfl

end Exec

/-- In every session, if no function of the host fails with an error of parsing, as none of the
standard library does: an expression that fails with such an error leaves the session as it
was. A line is run as statements from that same session then, and is just evaluated
otherwise, so nothing that it does is done twice. -/
theorem evalLine_eq_exec_or_eval {s : Session} (hs : s.env.Bodies Body.ParseFree) (fuel : Nat)
    (source : String) :
    (∀ f ∈ Library.functions, f.native.ParseFree) ∧
      (∀ e t, Exec.eval fuel source s = .error e t → e.kind? = some .parse → t = s) ∧
      Exec.evalLine fuel source s =
        if (Exec.eval fuel source).failureKind? s = some .parse then
          (do Exec.exec fuel source; return none : Exec (Option Value)) s
        else (some <$> Exec.eval fuel source) s := by
  have hunchanged {e : Failure} {t : Session} (heval : Exec.eval fuel source s = .error e t)
      (he : e.kind? = some .parse) : t = s :=
    (Exec.rollsBack_parseExpr source).eq (Exec.eval_parse_error hs heval he)
  refine ⟨Library.parseFree_library, fun _ _ => hunchanged, ?_⟩
  split
  · rename_i hkind
    obtain ⟨e, t, heval, he⟩ := Exec.exists_of_failureKind? hkind
    rw [Exec.evalLine_of_parse_error heval he, hunchanged heval he]
  · rename_i hkind
    exact Exec.evalLine_of_failureKind? hkind

theorem parseFree_withLibrary : Session.empty.withLibrary.env.Bodies Body.ParseFree :=
  ((Session.code_empty trivial).withLibrary Library.parseFree_library).bodies

/-- The line begins like an array, which it is not: what it prints is printed once. -/
theorem evalLine_eq_exec_or_eval_braces :
    (Exec.eval 0 "\x7b x = 1, print(x); \x7d").failureKind? Session.empty.withLibrary =
        some .parse ∧
      Exec.evalLine 0 "\x7b x = 1, print(x); \x7d" Session.empty.withLibrary =
        (do Exec.exec 0 "\x7b x = 1, print(x); \x7d"; return none : Exec (Option Value))
          Session.empty.withLibrary := by
  have hkind : (Exec.eval 0 "\x7b x = 1, print(x); \x7d").failureKind?
      Session.empty.withLibrary = some .parse := by
    decide +kernel
  refine ⟨hkind, ?_⟩
  rw [(evalLine_eq_exec_or_eval parseFree_withLibrary 0 _).2.2, if_pos hkind]

end Scriptlet
