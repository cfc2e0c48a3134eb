import Scriptlet.Proofs.Library.Careful
import Scriptlet.Proofs.Session.Kept

/-!
# The history of a session

A host drives a session by one `Request` after the other. `Reachable` collects the
sessions that can come of it, whether the requests were answered or refused, together
with the sources that were accepted on the way. Which functions the host may provide is a
parameter, because what can be said about a session depends on them.

A panic is not an answer that a host could go on from, so no history goes beyond one.
-/

namespace Scriptlet

/-- What a host asks of a session. -/
inductive Request where
  | load (source : String)
  | run
  | exec (source : String)
  | interpret (source : String)
  | eval (source : String)
  | line (source : String)
  | get (name : String)
  | set (name : String) (v : Value)
  | call (name : String) (args : List Value)
  | provide (name : String) (params : List String) (native : Native)
  | library

/-- Whether a session accepts a source as a program. -/
def Session.accepts (s : Session) (source : String) : Bool :=
  match Exec.parse source s with
  | .ok _ _ => true
  | .error _ _ => false

namespace Request

/-- The action of a request, with the values that it gives. -/
def perform (fuel : Nat) : Request → Exec (List Value)
  | load source => do
      Exec.load source
      return []
  | run => do
      Exec.runProgram fuel
      return []
  | exec source => do
      Exec.exec fuel source
      return []
  | interpret source => do
      Exec.interpret fuel source
      return []
  | eval source => do
      let v ← Exec.eval fuel source
      return [v]
  | line source => do
      let v? ← Exec.evalLine fuel source
      return v?.toList
  | get name => do
      let s ← MonadState.get
      return (s.get? name).toList
  | set name v => do
      modify (·.set name v)
      return []
  | call name args => do
      let (v, left) ← Exec.call fuel name args
      return v :: left
  | provide name params native => do
      modify (·.provide name params native)
      return []
  | library => do
      modify (·.withLibrary)
      return []

/-- Whether the functions that a request provides are among `natives`. -/
def Permitted (natives : Native → Prop) : Request → Prop
  | provide _ _ native => natives native
  | _ => True

/-- The sources that are accepted in the course of a request. A line is read as a program
only if it cannot be parsed as an expression. -/
def accepted (fuel : Nat) (s : Session) : Request → List String
  | load source => [source].filter s.accepts
  | exec source => [source].filter s.accepts
  | interpret source => [source].filter s.accepts
  | line source =>
      match Exec.eval fuel source s with
      | .ok _ _ => []
      | .error e t => if e.kind? = some .parse then [source].filter t.accepts else []
  | _ => []

end Request

/-- The sessions that a host can come to, with the sources accepted on the way. -/
inductive Reachable (natives : Native → Prop) : List String → Session → Prop where
  /-- Nothing has happened. -/
  | start : Reachable natives [] Session.empty
  /-- A request was answered. -/
  | answered {accepted : List String} {s t : Session} {r : Request} {fuel : Nat}
      {vs : List Value} (h : Reachable natives accepted s) (hr : r.Permitted natives)
      (hrun : r.perform fuel s = .ok vs t) :
      Reachable natives (accepted ++ r.accepted fuel s) t
  /-- A request was refused. -/
  | refused {accepted : List String} {s t : Session} {r : Request} {fuel : Nat} {e : Failure}
      (h : Reachable natives accepted s) (hr : r.Permitted natives)
      (hrun : r.perform fuel s = .error e t) (he : ∀ p, e ≠ .panic p) :
      Reachable natives (accepted ++ r.accepted fuel s) t

namespace Session

theorem provideAll_of_steps {P : Session → Prop} {fs : List Provided}
    (hprovide : ∀ f ∈ fs, ∀ {s : Session}, P s → P (s.provide f.name f.params f.native))
    {s : Session} (hs : P s) : P (s.provideAll fs) := by
  induction fs generalizing s with
  | nil => exact hs
  | cons f fs ih =>
      refine ih (fun f' hf' => hprovide f' (List.mem_cons_of_mem f hf')) ?_
      exact hprovide f List.mem_cons_self hs

/-- What holds after each function provided and each global set holds with the standard
library. -/
theorem withLibrary_of_steps {P : Session → Prop}
    (hprovide : ∀ f ∈ Library.functions, ∀ {s : Session}, P s →
      P (s.provide f.name f.params f.native))
    (hset : ∀ (name : String) (v : Value) {s : Session}, P s → P (s.set name v))
    {s : Session} (hs : P s) : P s.withLibrary := by
  have hall {fs : List Provided} (hfs : ∀ f ∈ fs, f ∈ Library.functions) {s' : Session}
      (hs' : P s') : P (s'.provideAll fs) :=
    provideAll_of_steps (fun f hf => hprovide f (hfs f hf)) hs'
  have hconversion : P (s.provideAll Library.conversion) :=
    hall (fun f hf => by simp [Library.functions, hf]) hs
  have harray : P ((s.provideAll Library.conversion).provideAll Library.array) :=
    hall (fun f hf => by simp [Library.functions, hf]) hconversion
  refine hall (fun f hf => by simp [Library.functions, hf]) ?_
  exact hset _ _ (hset _ _ harray)

end Session

/-! ### What lasts over all requests -/

/-- What makes a property of sessions last: running keeps it, and so do parsing and what a
host sets or provides. -/
structure Lasting (inv : Session → Prop) : Prop where
  kept : ∀ {s t : Session}, s.Kept t → inv s → inv t
  parse : ∀ source, Exec.Upholds inv (fun _ => True) (fun _ => True) (Exec.parse source)
  load : ∀ source, Exec.Upholds inv (fun _ => True) (fun _ => True) (Exec.load source)
  parseExpr : ∀ source, Exec.Upholds inv (fun _ => True) (fun _ => True) (Exec.parseExpr source)
  set : ∀ {s : Session} (name : String) (v : Value), inv s → inv (s.set name v)
  provide : ∀ {s : Session} (name : String) (params : List String) (native : Native), inv s →
    inv (s.provide name params native)

namespace Lasting

variable {α : Type} {inv : Session → Prop}

theorem of_kept (h : Lasting inv) {result : α → Prop} {x : Exec α}
    (hx : ∀ s₀ : Session, Exec.Upholds s₀.Kept (fun _ => True) result x) :
    Exec.Upholds inv (fun _ => True) result x := by
  intro s hs
  refine (hx s s (Session.Kept.refl s)).mono ?_ ?_
  · rintro a t ⟨ht, ha⟩
    exact ⟨h.kept ht hs, ha⟩
  · rintro e t ⟨ht, _⟩
    exact ⟨h.kept ht hs, trivial⟩

theorem evalExpr (h : Lasting inv) (fuel : Nat) (e : Expr) :
    Exec.Upholds inv (fun _ => True) (fun _ => True) (evalExpr (invoke fuel maxFrames) e) := by
  refine h.of_kept fun s₀ => ?_
  refine upholds_evalExpr (upheld_kept s₀) ?_ fun _ _ => trivial
  intro index sources pos? _ _
  exact kept_invoke fuel maxFrames index sources pos? s₀

theorem runStmts (h : Lasting inv) (fuel : Nat) (stmts : List Stmt) :
    Exec.Upholds inv (fun _ => True) (fun _ => True) (Exec.runStmts fuel stmts) := by
  refine h.of_kept fun s₀ => ?_
  refine (upholds_execBlock (upheld_kept s₀) ?_ fuel (fun _ _ => trivial) fun _ => trivial).discard
  intro index sources pos? _ _
  exact kept_invoke fuel maxFrames index sources pos? s₀

theorem runProgram (h : Lasting inv) (fuel : Nat) :
    Exec.Upholds inv (fun _ => True) (fun _ => True) (Exec.runProgram fuel) :=
  Exec.Upholds.get_bind fun start _ => h.runStmts fuel start.program

theorem eval (h : Lasting inv) (fuel : Nat) (source : String) :
    Exec.Upholds inv (fun _ => True) (fun _ => True) (Exec.eval fuel source) :=
  (h.parseExpr source).bind fun e _ => h.evalExpr fuel e

theorem exec (h : Lasting inv) (fuel : Nat) (source : String) :
    Exec.Upholds inv (fun _ => True) (fun _ => True) (Exec.exec fuel source) :=
  (h.parse source).bind fun stmts _ => h.runStmts fuel stmts

theorem evalLine (h : Lasting inv) (fuel : Nat) (source : String) :
    Exec.Upholds inv (fun _ => True) (fun _ => True) (Exec.evalLine fuel source) := by
  intro s hs
  rw [Exec.evalLine, after_tryCatch, after_map]
  refine (h.eval fuel source s hs).mono (fun _ _ h => ⟨h.1, trivial⟩) ?_
  rintro e t ⟨ht, _⟩
  split
  · exact ((h.exec fuel source).bind fun _ _ => Exec.Upholds.pure trivial) t ht
  · exact ⟨ht, trivial⟩

theorem call (h : Lasting inv) (fuel : Nat) (name : String) (args : List Value) :
    Exec.Upholds inv (fun _ => True) (fun _ => True) (Exec.call fuel name args) := by
  refine Exec.Upholds.get_bind fun start _ => ?_
  split
  · exact Exec.Upholds.throw trivial
  · rename_i index _
    refine (h.of_kept (kept_invoke fuel maxFrames index _ none)).bind fun frame _ => ?_
    exact Exec.Upholds.get_bind fun _ _ => Exec.Upholds.pure trivial

theorem perform (h : Lasting inv) (fuel : Nat) (r : Request) :
    Exec.Upholds inv (fun _ => True) (fun _ => True) (r.perform fuel) := by
  have hdone (vs : List Value) : Exec.Upholds inv (fun _ => True) (fun _ => True) (pure vs) :=
    Exec.Upholds.pure trivial
  cases r with
  | load source => exact (h.load source).bind fun _ _ => hdone _
  | run => exact (h.runProgram fuel).bind fun _ _ => hdone _
  | exec source => exact (h.exec fuel source).bind fun _ _ => hdone _
  | interpret source =>
      exact ((h.load source).bind fun _ _ => h.runProgram fuel).bind fun _ _ => hdone _
  | eval source => exact (h.eval fuel source).bind fun _ _ => hdone _
  | line source => exact (h.evalLine fuel source).bind fun _ _ => hdone _
  | get name => exact Exec.Upholds.get_bind fun _ _ => hdone _
  | call name args => exact (h.call fuel name args).bind fun _ _ => hdone _
  | set name v => exact fun s hs => ⟨h.set name v hs, trivial⟩
  | provide name params native => exact fun s hs => ⟨h.provide name params native hs, trivial⟩
  | library =>
      intro s hs
      refine ⟨Session.withLibrary_of_steps (fun f _ s' hs' => ?_) (fun name v s' hs' => ?_) hs,
        trivial⟩
      · exact h.provide f.name f.params f.native hs'
      · exact h.set name v hs'

/-- What holds at first and lasts over requests holds of every session that a host can come
to. -/
theorem reachable (h : Lasting inv) (hempty : inv Session.empty) {natives : Native → Prop}
    {accepted : List String} {s : Session} (hs : Reachable natives accepted s) : inv s := by
  induction hs with
  | start => exact hempty
  | answered _ hr hrun ih => exact ((h.perform _ _ _ ih).of_ok hrun).1
  | refused _ hr hrun he ih => exact ((h.perform _ _ _ ih).of_error hrun).1

end Lasting

/-! ### No call is in progress between requests -/

/-- No call is in progress. -/
def Session.Idle (s : Session) : Prop :=
  s.frames = []

namespace Exec

variable {α : Type}

theorem upholds_idle_ofExcept (x : Except Error α) :
    Upholds Session.Idle (fun _ => True) (fun _ => True) (ofExcept x) := by
  cases x with
  | ok a => exact Upholds.pure trivial
  | error e => exact Upholds.throw trivial

theorem upholds_idle_declaring (parser : Parser α) :
    Upholds Session.Idle (fun _ => True) (fun _ => True) (declaring parser) := by
  intro s hs
  unfold After declaring
  cases parser s.env with
  | ok a env => exact ⟨hs, trivial⟩
  | error e env => exact ⟨hs, trivial⟩

theorem upholds_idle_parse (source : String) :
    Upholds Session.Idle (fun _ => True) (fun _ => True) (parse source) :=
  (upholds_idle_ofExcept _).bind fun _ _ => upholds_idle_declaring _

theorem upholds_idle_parseExpr (source : String) :
    Upholds Session.Idle (fun _ => True) (fun _ => True) (parseExpr source) := by
  refine (upholds_idle_ofExcept _).bind fun ts _ => ?_
  split
  · exact Upholds.throw trivial
  · refine (upholds_idle_ofExcept _).bind fun extent _ => ?_
    split
    · exact upholds_idle_declaring _
    · exact Upholds.throw trivial

end Exec

theorem lasting_idle : Lasting Session.Idle where
  kept ht hs := ht.frames_eq_nil hs
  parse := Exec.upholds_idle_parse
  load source := (Exec.upholds_idle_parse source).bind fun _ _ _ hs => ⟨hs, trivial⟩
  parseExpr := Exec.upholds_idle_parseExpr
  set _ _ hs := hs
  provide _ _ _ hs := hs

/-- Between requests no call is in progress. -/
theorem Reachable.idle {natives : Native → Prop} {accepted : List String} {s : Session}
    (h : Reachable natives accepted s) : s.Idle :=
  lasting_idle.reachable rfl h

end Scriptlet
