import Scriptlet.Proofs.Session.Code
import Scriptlet.Proofs.Session.Room

/-!
# Programs without conditional loops come to an end

A function may call itself, and a loop over an array may make its own calls, so nothing in
the text of a program bounds its run. Two things do. The frames of the calls in progress
are limited, and every call takes one; within a call, the loop over an array has as many
rounds as the array had elements, and everything else goes down the program.

A run is not finished only if it fails with `Failure.outOfFuel`: a loop met its bound, or a
call had no room left. The main statement is `perform_terminates`. If neither the code of a
session nor the source of a request has a conditional loop, the request ends in one and the
same way under every bound.
-/

namespace Scriptlet

/-- Whether a body has no conditional loop. A function of the host has to come to an end. -/
def Body.WhileFree : Body → Prop
  | .script stmts => blockHasWhile stmts = false
  | .native run => run.Terminates

/-- Whether a token is the word that a conditional loop begins with. -/
def Token.isWhile (t : Token) : Bool :=
  match t.lexeme with
  | .keyword .whileWord => true
  | _ => false

/-- Whether a source does not contain the word that a conditional loop begins with. -/
def WhileFreeSource (source : String) : Prop :=
  ∀ t ∈ (tokenize source).tokens, t.isWhile = false

instance (source : String) : Decidable (WhileFreeSource source) :=
  inferInstanceAs (Decidable (∀ t ∈ (tokenize source).tokens, t.isWhile = false))

/-- Whether a request brings no conditional loop into a session. -/
def Request.WhileFree : Request → Prop
  | load source | exec source | interpret source | line source => WhileFreeSource source
  | provide _ _ native => native.Terminates
  | _ => True

/-! ### Accepted programs -/

theorem Parser.Reads.blockHasWhile {scope : Scope} {ts : List Token} {env env' : Environment}
    {stmts : List Stmt} (h : Reads scope ts env stmts env') (hts : ∀ t ∈ ts, t.isWhile = false) :
    blockHasWhile stmts = false := by
  have hof {us vs : List Token} (hvs : ∀ t ∈ vs, t.isWhile = false) (hsub : us ⊆ vs) :
      ∀ t ∈ us, t.isWhile = false :=
    fun t ht => hvs t (hsub ht)
  induction h with
  | nil => rfl
  | expr ht hx he hrest ih =>
      rw [Scriptlet.blockHasWhile, Stmt.hasWhile, Bool.false_or]
      exact ih (hof hts (takeExpression_isInfix hx).subset)
  | separator ht hrest ih => exact ih (List.forall_mem_cons.1 hts).2
  | define ht hn hp hdefine hrest ih =>
      obtain ⟨target, rfl, _⟩ := expectName_eq hn
      have hafter := (List.forall_mem_cons.1 (List.forall_mem_cons.1 hts).2).2
      exact ih (hof hafter (parameters_suffix hp).subset)
  | implement ht hn hk hb hbody hrest ihbody ihrest =>
      obtain ⟨target, rfl, _⟩ := expectName_eq hn
      have hafter := (List.forall_mem_cons.1 (List.forall_mem_cons.1 hts).2).2
      exact ihrest (hof hafter (takeBlock_isInfix hb).2.subset)
  | cond ht hhead hbody hrest ihbody ihrest =>
      have hafter := (List.forall_mem_cons.1 hts).2
      rw [Scriptlet.blockHasWhile, Stmt.hasWhile, ihbody (hof hafter hhead.subset.1),
        ihrest (hof hafter hhead.subset.2), Bool.false_or]
  | loop ht hhead hbody hrest ihbody ihrest =>
      have hword := hts _ List.mem_cons_self
      rw [Token.isWhile, ht] at hword
      cases hword
  | each ht hv hvars hne hhead hbody hrest ihbody ihrest =>
      have hafter := hof (List.forall_mem_cons.1 hts).2 (loopVariables_suffix hv).subset
      rw [Scriptlet.blockHasWhile, Stmt.hasWhile, ihbody (hof hafter hhead.subset.1),
        ihrest (hof hafter hhead.subset.2), Bool.false_or]
  | returnNow ht hrest ih => exact ih (List.forall_mem_cons.1 hts).2
  | breakLoop ht hrest ih => exact ih (List.forall_mem_cons.1 hts).2
  | continueLoop ht hrest ih => exact ih (List.forall_mem_cons.1 hts).2
  | braces ht hb hinner hrest ihinner ihrest =>
      obtain ⟨hin, hafter⟩ := takeBlock_isInfix hb
      rw [blockHasWhile_append, ihinner (hof hts hin.subset), ihrest (hof hts hafter.subset),
        Bool.false_or]

theorem WhileFreeSource.tokens {source : String} (h : WhileFreeSource source) (ts : List Token)
    (hts : (tokenize source).toExcept = .ok ts) : ∀ t ∈ ts, t.isWhile = false :=
  Lexed.tokens_of_toExcept hts ▸ h

theorem established_whileFree : Session.Established (·.isWhile = false) Body.WhileFree where
  reads _ hts hreads := hreads.blockHasWhile hts
  append {stmts stmts'} h h' := by
    change blockHasWhile stmts = false at h
    change blockHasWhile stmts' = false at h'
    change blockHasWhile (stmts ++ stmts') = false
    rw [blockHasWhile_append, h, h', Bool.false_or]

/-! ### Calls -/

theorem upheld_whileFree :
    Upheld (Session.Code · Body.WhileFree) (fun _ => True) fun _ => True where
  cell _ _ _ := trivial
  setCell v hs _ _ := (Session.kept_setCell _ _ v).code hs
  error _ _ := trivial

/-- The bound on loops makes no difference to a call. -/
theorem agrees_invoke (fuel fuel' room index : Nat) (sources : List Source)
    (pos? : Option Position) :
    Exec.Agrees (Session.Code · Body.WhileFree) (invoke fuel room index sources pos?)
      (invoke fuel' room index sources pos?) := by
  intro s hs
  constructor
  · induction room generalizing index sources pos? s with
    | zero => rfl
    | succ below ih =>
        rw [invoke, invoke]
        refine callFunction_congr index sources pos? fun f frame t hroom hf ht => ?_
        have ht : t.Code Body.WhileFree := ht.code hs
        refine runBody_congr upheld_whileFree ?_ frame ?_ (s := t.enter frame hroom)
          ⟨ht.program, ht.bodies⟩
        · intro index' sources' pos?' u hu
          refine ⟨ih index' sources' pos?' u hu, ?_⟩
          have hkept := kept_invoke fuel below index' sources' pos?' u u (Session.Kept.refl u)
          exact hkept.mono (fun _ _ h => h.1.code hu) fun _ _ h => h.1.code hu
        · intro stmts hstmts hwhile
          have hfree := hs.bodies f (List.mem_of_getElem? hf)
          rw [hstmts] at hfree
          exact absurd hwhile (Bool.eq_false_iff.1 hfree)
  · have hkept := kept_invoke fuel room index sources pos? s s (Session.Kept.refl s)
    exact hkept.mono (fun _ _ h => h.1.code hs) fun _ _ h => h.1.code hs

theorem upheld_ends (s₀ : Session) : Upheld s₀.Kept (· ≠ .outOfFuel) fun _ => True where
  cell _ _ _ := by simp
  setCell v hs _ _ := hs.trans (Session.kept_setCell _ _ v)
  error _ _ := by simp

/-- A call comes to an end. The induction is on the room, which is ample: where none is left,
the limit on frames is met. -/
theorem ends_invoke (fuel : Nat) {room : Nat} {s₀ : Session} (hroom : s₀.Ample room)
    (hs₀ : s₀.Code Body.WhileFree) :
    (invoke fuel room).Upholds s₀.Kept (· ≠ .outOfFuel) fun _ => True := by
  intro index sources pos? _ hsources
  induction room generalizing index sources pos? s₀ with
  | zero =>
      refine upholds_callFunction (upheld_ends s₀) pos? hsources (by simp) ?_
      -- No body is run here, because the frame for it would be one too many.
      intro f frame t hless _ _ ht
      have hfull : maxFrames ≤ s₀.frames.length := by simpa [Session.Ample] using hroom
      have := ht.frames_length
      omega
  | succ below ih =>
      refine upholds_callFunction (upheld_ends s₀) pos? hsources (by simp) ?_
      intro f frame t hless hf hserves ht
      have hcode : t.Code Body.WhileFree := ht.code hs₀
      have hfree := hs₀.bodies f (List.mem_of_getElem? hf)
      refine upholds_runBody (upheld_ends _) ?_ ?_ ?_
      · intro index' sources' pos?' _ hsources'
        exact ih (hroom.enter ht frame hless) ⟨hcode.program, hcode.bodies⟩ index' sources' pos?'
          hsources'
      · intro stmts hstmts
        rw [hstmts] at hfree
        exact ⟨fun _ _ => trivial, fun hwhile => absurd hwhile (Bool.eq_false_iff.1 hfree)⟩
      · intro run e hrun he hfuel
        rw [hrun] at hfree
        rw [hfuel] at he
        exact hfree frame hserves.args he

/-! ### Requests -/

namespace Exec

variable {α β : Type} {result : α → Prop} {result' : β → Prop} {s : Session}

/-- Whether an action, which is given a bound for its loops, comes to an end: it ends in the
same way under all bounds and never by running out. No conditional loop gets into the
session. -/
structure Terminates (result : α → Prop) (x : Nat → Exec α) (s : Session) : Prop where
  same : ∀ fuel fuel', x fuel s = x fuel' s
  ends : ∀ fuel, After (x fuel) s (fun a t => t.Code Body.WhileFree ∧ result a)
    fun e t => t.Code Body.WhileFree ∧ e ≠ .outOfFuel

/-- An action without loops. -/
theorem Terminates.of_after {x : Exec α}
    (h : After x s (fun a t => t.Code Body.WhileFree ∧ result a)
      fun e t => t.Code Body.WhileFree ∧ ∃ error, e = .error error) :
    Terminates result (fun _ => x) s := by
  refine ⟨fun _ _ => rfl, fun _ => h.mono (fun _ _ h => h) ?_⟩
  rintro e t ⟨ht, error, rfl⟩
  exact ⟨ht, by simp⟩

theorem Terminates.pure {a : α} (hs : s.Code Body.WhileFree) (ha : result a) :
    Terminates result (fun _ => Pure.pure a) s :=
  ⟨fun _ _ => rfl, fun _ => ⟨hs, ha⟩⟩

theorem Terminates.bind {x : Nat → Exec α} {f : Nat → α → Exec β} (hx : Terminates result x s)
    (hf : ∀ a t, t.Code Body.WhileFree → result a → Terminates result' (f · a) t) :
    Terminates result' (fun fuel => x fuel >>= f fuel) s := by
  constructor
  · intro fuel fuel'
    cases hend : x fuel s with
    | ok a t =>
        obtain ⟨ht, ha⟩ := (hx.ends fuel).of_ok hend
        rw [bind_of_ok hend, bind_of_ok (hx.same fuel fuel' ▸ hend)]
        exact (hf a t ht ha).same fuel fuel'
    | error e t => rw [bind_of_error hend, bind_of_error (hx.same fuel fuel' ▸ hend)]
  · intro fuel
    rw [after_bind]
    refine (hx.ends fuel).mono ?_ fun _ _ h => h
    rintro a t ⟨ht, ha⟩
    exact (hf a t ht ha).ends fuel

theorem Terminates.get_bind {f : Nat → Session → Exec β} (h : Terminates result' (f · s) s) :
    Terminates result' (fun fuel => get >>= f fuel) s :=
  ⟨h.same, h.ends⟩

/-- What running keeps and how it ends, where all bounds agree. -/
theorem Terminates.of_upholds {x : Nat → Exec α} (hs : s.Code Body.WhileFree)
    (hsame : ∀ fuel fuel', Agrees (Session.Code · Body.WhileFree) (x fuel) (x fuel'))
    (hends : ∀ fuel, Upholds s.Kept (· ≠ .outOfFuel) result (x fuel)) :
    Terminates result x s := by
  refine ⟨fun fuel fuel' => (hsame fuel fuel' s hs).1, fun fuel => ?_⟩
  refine (hends fuel s (Session.Kept.refl s)).mono ?_ ?_
  · exact fun _ _ h => ⟨h.1.code hs, h.2⟩
  · exact fun _ _ h => ⟨h.1.code hs, h.2⟩

theorem ample_maxFrames (s : Session) : s.Ample maxFrames :=
  Nat.le_add_right _ _

theorem terminates_invoke (hs : s.Code Body.WhileFree) (index : Nat) {sources : List Source}
    (pos? : Option Position) :
    Terminates (fun _ => True) (fun fuel => invoke fuel maxFrames index sources pos?) s :=
  .of_upholds hs (fun fuel fuel' => agrees_invoke fuel fuel' maxFrames index sources pos?)
    fun fuel => ends_invoke fuel (ample_maxFrames s) hs index sources pos? trivial
      fun _ _ => trivial

theorem terminates_evalExpr (hs : s.Code Body.WhileFree) (e : Expr) :
    Terminates (fun _ => True) (fun fuel => evalExpr (invoke fuel maxFrames) e) s := by
  refine .of_upholds hs (fun fuel fuel' => ?_) fun fuel => ?_
  · exact (agrees_terms_items_expr_arguments upheld_whileFree
      (agrees_invoke fuel fuel' maxFrames)).2.2.1 e
  · exact upholds_evalExpr (upheld_ends s) (ends_invoke fuel (ample_maxFrames s) hs)
      fun _ _ => trivial

theorem terminates_runStmts (hs : s.Code Body.WhileFree) {stmts : List Stmt}
    (hstmts : blockHasWhile stmts = false) :
    Terminates (fun _ => True) (fun fuel => runStmts fuel stmts) s := by
  have hfree {P : Prop} (hwhile : blockHasWhile stmts = true) : P :=
    absurd hwhile (Bool.eq_false_iff.1 hstmts)
  refine .of_upholds hs (fun fuel fuel' => ?_) fun fuel => ?_
  · exact ((agrees_execStmt_execBlock upheld_whileFree (agrees_invoke fuel fuel' maxFrames) fuel
      fuel').2 stmts hfree).discard
  · exact (upholds_execBlock (upheld_ends s) (ends_invoke fuel (ample_maxFrames s) hs) fuel
      (fun _ _ => trivial) hfree).discard

theorem terminates_runProgram (hs : s.Code Body.WhileFree) :
    Terminates (fun _ => True) runProgram s :=
  .get_bind (terminates_runStmts hs hs.program)

theorem terminates_load (hs : s.Code Body.WhileFree) {source : String}
    (hsource : WhileFreeSource source) : Terminates (fun _ => True) (fun _ => load source) s :=
  .of_after ((hs.load established_whileFree hsource.tokens).mono (fun _ _ h => ⟨h, trivial⟩)
    fun _ _ h => h)

theorem terminates_exec (hs : s.Code Body.WhileFree) {source : String}
    (hsource : WhileFreeSource source) : Terminates (fun _ => True) (exec · source) s :=
  (Terminates.of_after (hs.parse established_whileFree hsource.tokens)).bind
    fun _ _ ht hstmts => terminates_runStmts ht hstmts

theorem terminates_eval (hs : s.Code Body.WhileFree) (source : String) :
    Terminates (fun _ => True) (eval · source) s := by
  have hparse : Terminates (fun _ => True) (fun _ => parseExpr source) s :=
    .of_after ((hs.parseExpr source).mono (fun _ _ h => ⟨h, trivial⟩) fun _ _ h => h)
  exact hparse.bind fun e _ ht _ => terminates_evalExpr ht e

theorem terminates_evalLine (hs : s.Code Body.WhileFree) {source : String}
    (hsource : WhileFreeSource source) : Terminates (fun _ => True) (evalLine · source) s := by
  have heval : Terminates (fun _ => True) (fun fuel => some <$> eval fuel source) s :=
    (terminates_eval hs source).bind fun _ _ ht _ => .pure ht trivial
  have hexec {t : Session} (ht : t.Code Body.WhileFree) :
      Terminates (fun _ => True) (fun fuel => do exec fuel source; return (none : Option Value))
        t :=
    (terminates_exec ht hsource).bind fun _ _ hu _ => .pure hu trivial
  constructor
  · intro fuel fuel'
    unfold evalLine
    cases hend : (some <$> eval fuel source) s with
    | ok v? t => rw [tryCatch_of_ok hend, tryCatch_of_ok (heval.same fuel fuel' ▸ hend)]
    | error e t =>
        rw [tryCatch_of_error hend, tryCatch_of_error (heval.same fuel fuel' ▸ hend)]
        split
        · exact (hexec ((heval.ends fuel).of_error hend).1).same fuel fuel'
        · rfl
  · intro fuel
    rw [evalLine, after_tryCatch]
    refine (heval.ends fuel).mono (fun _ _ h => h) ?_
    rintro e t ⟨ht, he⟩
    split
    · exact (hexec ht).ends fuel
    · exact ⟨ht, he⟩

theorem terminates_call (hs : s.Code Body.WhileFree) (name : String) (args : List Value) :
    Terminates (fun _ => True) (call · name args) s := by
  refine .get_bind ?_
  cases s.env.functionIndex? name with
  | none => exact .of_after ⟨hs, _, rfl⟩
  | some index =>
      exact (terminates_invoke hs index none).bind fun frame t ht _ => .get_bind (.pure ht trivial)

end Exec

theorem Request.terminates_perform {s : Session} {r : Request} (hs : s.Code Body.WhileFree)
    (hr : r.WhileFree) : Exec.Terminates (fun _ => True) r.perform s := by
  have hdone {t : Session} (ht : t.Code Body.WhileFree) (vs : List Value) :
      Exec.Terminates (fun _ => True) (fun _ => pure vs) t :=
    .pure ht trivial
  cases r with
  | load source => exact (Exec.terminates_load hs hr).bind fun _ _ ht _ => hdone ht _
  | run => exact (Exec.terminates_runProgram hs).bind fun _ _ ht _ => hdone ht _
  | exec source => exact (Exec.terminates_exec hs hr).bind fun _ _ ht _ => hdone ht _
  | interpret source =>
      have hboth : Exec.Terminates (fun _ => True) (Exec.interpret · source) s :=
        (Exec.terminates_load hs hr).bind fun _ _ ht _ => Exec.terminates_runProgram ht
      exact hboth.bind fun _ _ ht _ => hdone ht _
  | eval source => exact (Exec.terminates_eval hs source).bind fun _ _ ht _ => hdone ht _
  | line source => exact (Exec.terminates_evalLine hs hr).bind fun _ _ ht _ => hdone ht _
  | get name => exact .get_bind (hdone hs _)
  | set name v => exact .of_after ⟨hs.set name v, trivial⟩
  | call name args => exact (Exec.terminates_call hs name args).bind fun _ _ ht _ => hdone ht _
  | provide name params native => exact .of_after ⟨hs.provide name params hr, trivial⟩
  | library => exact .of_after ⟨hs.withLibrary Library.terminates_library, trivial⟩

/-- A request to a session without conditional loops ends in one way, whatever bound its loops
are given, and never by meeting the bound. -/
theorem perform_terminates {s : Session} {r : Request} (hs : s.Code Body.WhileFree)
    (hr : r.WhileFree) :
    ∃ outcome, (∀ t, outcome ≠ .error .outOfFuel t) ∧ ∀ fuel, r.perform fuel s = outcome := by
  have h := r.terminates_perform hs hr
  refine ⟨r.perform 0 s, fun t hend => ?_, fun fuel => h.same fuel 0⟩
  exact ((h.ends 0).of_error hend).2 rfl

/-- Two functions that call each other without end, one of them from a loop. -/
def endlessCalls : String :=
  "DEF f x; DEF g x; IMP f \x7b FOR i IN \x7b1, 2\x7d \x7b g(x + i); \x7d \x7d
  IMP g \x7b IF (x > 0) \x7b g = f(x) + len(str(x)); \x7d \x7d f(1);"

theorem perform_terminates_endlessCalls :
    ∃ outcome, (∀ t, outcome ≠ .error .outOfFuel t) ∧
      ∀ fuel, (Request.exec endlessCalls).perform fuel Session.empty.withLibrary = outcome := by
  have hempty : Session.empty.Code Body.WhileFree := Session.code_empty rfl
  have hsource : WhileFreeSource endlessCalls := by decide +kernel
  exact perform_terminates (hempty.withLibrary Library.terminates_library) hsource

end Scriptlet
