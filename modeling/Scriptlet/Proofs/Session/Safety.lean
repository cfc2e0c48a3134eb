import Scriptlet.Proofs.Parsing.Growth
import Scriptlet.Proofs.Parsing.Soundness
import Scriptlet.Proofs.Session.History
import Scriptlet.Proofs.Session.Rollback

/-!
# Panics

A panic is an access to something that is not there, or a request for too much memory.
`Session.Sound` says that all code in a session, loaded or in the body of a function,
mentions only what is there, and that no call is in progress. Every request keeps this, and
in a sound session nothing panics, with two exceptions. A declaration of a function inside a
body that is given for it may take parameters away which the body has used before; calling
the function then may panic. And `range` of the standard library asks for room for all its
items at once, however many they are.

The main statement is `panic_only_redeclared_or_tooLong`: these are the only panics that a
host can ever see, the first only after a source with such a declaration was accepted, the
second only above `Library.maxItems`.
-/

namespace Scriptlet

/-- Whether a failure is no panic, or the panic of a parameter that is missing in a function
that is `loose`, or of too many items that are asked for at once. -/
def Failure.Benign (loose : String → Prop) (e : Failure) : Prop :=
  ∀ p, e = .panic p → (∃ f i, p = .noParam f i ∧ loose f) ∨
    ∃ n, p = .tooLong n ∧ Library.maxItems < n

namespace Failure

variable {loose : String → Prop}

theorem benign_error (e : Error) : Benign loose (.error e) := by
  intro p h
  cases h

theorem benign_outOfFuel : Benign loose .outOfFuel := by
  intro p h
  cases h

end Failure

/-! ### Running -/

namespace Session

variable {loose : String → Prop} {s t : Session}

/-- Whether a reference points to something that is there, for code that is run now. -/
def Admits (s : Session) (loose : String → Prop) : Reference → Prop
  | .function k => k < s.env.functions.length
  | .cell (.param i _) => ∃ frame rest, s.frames = frame :: rest ∧
      (i < frame.params.length ∨ loose frame.function)
  | .cell slot => s.Has slot

theorem benign_cell {slot : Slot} {p : Panic} (hslot : s.Admits loose (.cell slot)) (hst : s.Kept t)
    (h : t.cell slot = .error p) : Failure.Benign loose (.panic p) := by
  have hmissing : ¬ t.Has slot := by
    intro hhas
    obtain ⟨v, hv⟩ := has_iff.1 hhas
    rw [hv] at h
    cases h
  cases slot with
  | global i name => exact (hmissing (hst.has hslot)).elim
  | last f name => exact (hmissing (hst.has hslot)).elim
  | result name => exact (hmissing (hst.has hslot)).elim
  | param i name =>
      obtain ⟨frame, rest, hframes, hi⟩ := hslot
      obtain ⟨frame', hframes', hshape⟩ := hst.frames_eq_cons hframes
      have hfunction : frame'.function = frame.function := congrArg Prod.fst hshape
      have hlength : frame'.params.length = frame.params.length :=
        congrArg (fun shape => shape.2.1) hshape
      by_cases hlt : i < frame'.params.length
      · exact absurd ⟨frame', rest, hframes', hlt⟩ hmissing
      · intro p' hp'
        cases hp'
        simp only [cell, hframes', List.getElem?_eq_none (Nat.le_of_not_lt hlt)] at h
        cases h
        refine .inl ⟨_, i, rfl, ?_⟩
        rw [hfunction]
        rw [hlength] at hlt
        exact hi.resolve_left hlt

/-- In a session where code mentions only what is there, accesses are benign. -/
theorem upheld_benign (s : Session) (loose : String → Prop) :
    Upheld s.Kept (Failure.Benign loose) (s.Admits loose) where
  cell hst hslot h := benign_cell hslot hst h
  setCell v hst _ _ := hst.trans (kept_setCell _ _ v)
  error e _ := Failure.benign_error e

theorem Kept.function_back {k : Nat} {g : Function} (h : s.Kept t)
    (hg : t.env.functions[k]? = some g) : ∃ f, s.env.functions[k]? = some f ∧ f.Kept g := by
  have hlt : k < s.env.functions.length := by
    rw [← h.functions_length]
    exact (List.getElem?_eq_some_iff.1 hg).1
  have hf : s.env.functions[k]? = some s.env.functions[k] := List.getElem?_eq_getElem hlt
  exact ⟨_, hf, h.functions hf hg⟩

theorem Kept.sound {natives : Native → Prop} (h : s.Kept t)
    (hsound : s.env.Sound natives loose) : t.env.Sound natives loose := by
  refine hsound.of_functions (fun _ hn => hn) (Nat.le_of_eq h.globals_length.symm)
    (Nat.le_of_eq h.functions_length.symm) ?_
  intro k g hg
  obtain ⟨f, hf, hfg⟩ := h.function_back hg
  exact .inl ⟨f, hf, hfg.name, hfg.body, hfg.params.length_le⟩

/-- What the environment admits in the body of a function, the session admits while a frame
of this function is the innermost. -/
theorem admits_enter {k : Nat} {f : Function} {frame : Frame} {r : Reference}
    {hroom : t.frames.length < maxFrames} (hf : s.env.functions[k]? = some f)
    (hserves : frame.Serves f) (hst : s.Kept t) (hr : s.env.Admits loose (some k) r) :
    (t.enter frame hroom).Admits loose r := by
  cases r with
  | function i => exact Nat.lt_of_lt_of_eq hr hst.functions_length.symm
  | cell slot =>
      cases slot with
      | global i name => exact Nat.lt_of_lt_of_eq hr hst.globals_length.symm
      | last i name => exact Nat.lt_of_lt_of_eq hr hst.functions_length.symm
      | result name => exact ⟨frame, t.frames, rfl⟩
      | param i name =>
          obtain ⟨k', f', hk, hf', hi⟩ := hr
          cases hk
          rw [hf] at hf'
          cases hf'
          refine ⟨frame, t.frames, rfl, ?_⟩
          rw [hserves.function]
          exact hi.imp_left fun hlt => Nat.lt_of_lt_of_le hlt hserves.params

/-- What the environment admits outside of every body, the session admits at any time. -/
theorem admits_of_none {r : Reference} (hr : s.env.Admits loose none r) : s.Admits loose r := by
  cases r with
  | function i => exact hr
  | cell slot =>
      cases slot with
      | global i name => exact hr
      | last i name => exact hr
      | result name =>
          obtain ⟨k, hk⟩ := hr
          cases hk
      | param i name =>
          obtain ⟨k, f, hk, _⟩ := hr
          cases hk

end Session

/-- In a sound environment calls are benign, however deep they are nested. -/
theorem benign_invoke {loose : String → Prop} (fuel room : Nat) :
    ∀ s : Session, s.env.Sound Native.Guarded loose →
      (invoke fuel room).Upholds s.Kept (Failure.Benign loose) (s.Admits loose) := by
  induction room with
  | zero =>
      intro s hsound index sources pos? hindex hsources
      refine upholds_callFunction (s.upheld_benign loose) pos? hsources ?_ ?_
      · intro hnone
        exact absurd (List.getElem?_eq_none_iff.1 hnone) (Nat.not_le.2 hindex)
      · intro f frame t hroom _ _ _
        exact Exec.Upholds.throw Failure.benign_outOfFuel
  | succ below ih =>
      intro s hsound index sources pos? hindex hsources
      refine upholds_callFunction (s.upheld_benign loose) pos? hsources ?_ ?_
      · intro hnone
        exact absurd (List.getElem?_eq_none_iff.1 hnone) (Nat.not_le.2 hindex)
      · intro f frame t hroom hf hserves hst
        have hfits := hsound index f hf
        refine upholds_runBody (Session.upheld_benign _ loose)
          (ih (t.enter frame hroom) (hst.sound hsound)) ?_ ?_
        · intro stmts hbody
          rw [hbody] at hfits
          refine ⟨fun r hr => ?_, fun _ => Failure.benign_outOfFuel⟩
          exact Session.admits_enter hf hserves hst (hfits r hr)
        · intro run e hbody he p hp
          rw [hbody] at hfits
          rw [hp] at he
          exact .inr (hfits frame hserves.args p he)

/-! ### Requests -/

/-- Whether one of the sources declares a function of the name inside of a body that is
given for it. -/
def Redeclared (sources : List String) (name : String) : Prop :=
  ∃ source ∈ sources, ∃ ts, (tokenize source).toExcept = .ok ts ∧ RedeclaresInside name ts

/-- Whether no call is in progress and all code mentions only what is there. -/
structure Session.Sound (s : Session) (loose : String → Prop) : Prop where
  idle : s.Idle
  env : s.env.Sound Native.Guarded loose
  program : ∀ r ∈ blockReferences s.program, s.env.Admits loose none r

namespace Session.Sound

variable {loose loose' : String → Prop} {s t : Session}

theorem mono (h : s.Sound loose) (hloose : ∀ n, loose n → loose' n) : s.Sound loose' where
  idle := h.idle
  env := h.env.mono hloose
  program r hr := (h.program r hr).mono fun _ _ hk => by cases hk

theorem kept (h : s.Sound loose) (hst : s.Kept t) : t.Sound loose where
  idle := hst.frames_eq_nil h.idle
  env := hst.sound h.env
  program := by
    rw [hst.program]
    intro r hr
    refine (h.program r hr).transfer (Nat.le_of_eq hst.globals_length.symm)
      (Nat.le_of_eq hst.functions_length.symm) ?_
    intro k f hk
    cases hk

/-- The environment is replaced by one that is sound itself. -/
theorem withEnv {env : Environment} (h : s.Sound loose) (henv : env.Sound Native.Guarded loose)
    (hglobals : s.env.globals.length ≤ env.globals.length)
    (hlength : s.env.functions.length ≤ env.functions.length) :
    Session.Sound { s with env := env } loose where
  idle := h.idle
  env := henv
  program r hr := (h.program r hr).transfer hglobals hlength fun _ _ hk => by cases hk

theorem set (h : s.Sound loose) (name : String) (v : Value) : (s.set name v).Sound loose := by
  have hglobals : s.env.globals.length ≤ (s.env.set name v).globals.length := by
    have hle := s.env.globals_le_declare name
    simpa [Environment.set_eq] using hle
  have hfunctions : (s.env.set name v).functions = s.env.functions := s.env.functions_declare name
  exact h.withEnv (h.env.of_functions_eq hfunctions hglobals) hglobals
    (Nat.le_of_eq (congrArg List.length hfunctions.symm))

theorem provide (h : s.Sound loose) (name : String) (params : List String) {native : Native}
    (hnative : Native.Guarded native) : (s.provide name params native).Sound loose := by
  have henv : (s.env.provide name (params.map Param.ofString) native).Sound Native.Guarded loose ∧
      s.env.functions.length ≤
        (s.env.provide name (params.map Param.ofString) native).functions.length ∧
      s.env.globals.length ≤
        (s.env.provide name (params.map Param.ofString) native).globals.length := by
    unfold Environment.provide
    cases s.env.functionIndex? name with
    | none =>
        refine ⟨h.env.addFunction hnative, ?_, Nat.le_refl _⟩
        simp
    | some k =>
        refine ⟨h.env.modifyFunction fun f hf => .inr hnative, ?_, Nat.le_refl _⟩
        simp
  exact h.withEnv henv.1 henv.2.2 henv.2.1

end Session.Sound

section Requests

variable {loose : String → Prop} {s : Session}

theorem benign_of_error {e : Failure} (h : ∃ error, e = .error error) :
    Failure.Benign loose e := by
  obtain ⟨error, rfl⟩ := h
  exact Failure.benign_error error

/-- Running keeps a session sound. -/
theorem benign_of_upholds {α : Type} {result : α → Prop} {x : Exec α} (hs : s.Sound loose)
    (hx : Exec.Upholds s.Kept (Failure.Benign loose) result x) :
    After x s (fun _ t => t.Sound loose) fun e t => t.Sound loose ∧ e.Benign loose := by
  refine (hx s (Session.Kept.refl s)).mono ?_ ?_
  · rintro a t ⟨ht, -⟩
    exact hs.kept ht
  · rintro e t ⟨ht, hbenign⟩
    exact ⟨hs.kept ht, hbenign⟩

theorem benign_evalExpr (hs : s.Sound loose) (fuel : Nat) {e : Expr}
    (he : ∀ r ∈ e.references, s.env.Admits loose none r) :
    After (evalExpr (invoke fuel maxFrames) e) s (fun _ t => t.Sound loose)
      fun failure t => t.Sound loose ∧ failure.Benign loose := by
  refine benign_of_upholds hs (upholds_evalExpr (s.upheld_benign loose) ?_ ?_)
  · exact benign_invoke fuel maxFrames s hs.env
  · intro r hr
    exact Session.admits_of_none (he r hr)

theorem benign_runStmts (hs : s.Sound loose) (fuel : Nat) {stmts : List Stmt}
    (hstmts : ∀ r ∈ blockReferences stmts, s.env.Admits loose none r) :
    After (Exec.runStmts fuel stmts) s (fun _ t => t.Sound loose)
      fun failure t => t.Sound loose ∧ failure.Benign loose := by
  refine benign_of_upholds hs (upholds_execBlock (s.upheld_benign loose) ?_ fuel ?_ ?_).discard
  · exact benign_invoke fuel maxFrames s hs.env
  · intro r hr
    exact Session.admits_of_none (hstmts r hr)
  · exact fun _ => Failure.benign_outOfFuel

theorem benign_call (hs : s.Sound loose) (fuel : Nat) (name : String) (args : List Value) :
    After (Exec.call fuel name args) s (fun _ t => t.Sound loose)
      fun failure t => t.Sound loose ∧ failure.Benign loose := by
  rw [Exec.call, after_bind, after_get]
  cases hk : s.env.functionIndex? name with
  | none => exact ⟨hs, Failure.benign_error _⟩
  | some k =>
      obtain ⟨f, hf, _⟩ := Environment.exists_of_functionIndex? hk
      have hindex : s.Admits loose (.function k) := (List.getElem?_eq_some_iff.1 hf).1
      have hcall := benign_invoke fuel maxFrames s hs.env k (args.map .value) none hindex
        (Source.within_values _ args)
      dsimp only
      rw [after_bind]
      exact benign_of_upholds hs hcall

/-- Code is parsed outside of every body. If it is accepted, the session is sound with it. -/
theorem benign_declaring {α : Type} {parser : Parser α} {made : α → List Reference}
    {bodies inner : String → Prop} (hs : s.Sound loose) (hgrows : parser.Grows)
    (hscoped : Parser.Scoped ⟨Native.Guarded, bodies, inner, none⟩ [] made parser)
    (hbodies : ∀ n, loose n → bodies n)
    (haccepted : ∀ a env, parser s.env = .ok a env → ∀ n, bodies n → loose n) :
    After (Exec.declaring parser) s
      (fun a t => t.Sound loose ∧ ∀ r ∈ made a, t.env.Admits loose none r)
      fun e t => t.Sound loose ∧ e.Benign loose := by
  have hparsed := hscoped s.env (hs.env.mono hbodies) (List.forall_mem_nil _)
  have hrollback := Exec.rollsBack_declaring hgrows s
  unfold After at hparsed hrollback ⊢
  unfold Exec.declaring at hrollback ⊢
  cases hp : parser s.env with
  | ok a env =>
      rw [hp] at hparsed
      obtain ⟨hsound, hextends, hmade⟩ := hparsed
      refine ⟨hs.withEnv (hsound.mono (haccepted a env hp)) hextends.globals
        hextends.functions_length, ?_⟩
      intro r hr
      exact (hmade r hr).mono fun _ _ hk => by cases hk
  | error e env =>
      rw [hp] at hparsed hrollback
      dsimp only at hrollback ⊢
      rw [hrollback]
      exact ⟨hs, benign_of_error hparsed⟩

theorem benign_parse (hs : s.Sound loose) {source : String}
    (hloose : ∀ n, Redeclared ([source].filter s.accepts) n → loose n) :
    After (Exec.parse source) s
      (fun stmts t => t.Sound loose ∧ ∀ r ∈ blockReferences stmts, t.env.Admits loose none r)
      fun e t => t.Sound loose ∧ e.Benign loose := by
  rw [Exec.parse, after_bind]
  cases htokens : (tokenize source).toExcept with
  | error e => exact ⟨hs, Failure.benign_error _⟩
  | ok ts =>
      have hscoped := Parser.scoped_block Native.Guarded .top ts
        (fun n => loose n ∨ RedeclaresInside n ts) (Declares · ts) []
        ⟨fun _ h => h, fun _ h => .inr h⟩
      refine benign_declaring hs (Parser.grows_block .top ts) hscoped (fun _ h => .inl h) ?_
      rintro stmts env hparsed n (hn | hn)
      · exact hn
      · have haccepts : s.accepts source = true := by
          simp [Session.accepts, Exec.parse, Exec.ofExcept, Exec.declaring, htokens, hparsed, bind,
            EStateM.bind, pure, EStateM.pure]
        refine hloose n ⟨source, ?_, ts, htokens, hn⟩
        rw [List.mem_filter]
        exact ⟨List.mem_singleton_self source, haccepts⟩

theorem benign_parseExpr (hs : s.Sound loose) (source : String) :
    After (Exec.parseExpr source) s
      (fun e t => t.Sound loose ∧ ∀ r ∈ e.references, t.env.Admits loose none r)
      fun e t => t.Sound loose ∧ e.Benign loose := by
  rw [Exec.parseExpr, after_bind, Exec.after_ofExcept]
  cases (tokenize source).toExcept with
  | error e => exact ⟨hs, Failure.benign_error _⟩
  | ok ts =>
      dsimp only
      split
      · exact ⟨hs, Failure.benign_error _⟩
      · rename_i t ts _
        rw [after_bind, Exec.after_ofExcept]
        cases Extent.find true (t :: ts) with
        | error e => exact ⟨hs, Failure.benign_error _⟩
        | ok extent =>
            dsimp only
            split
            · have hscoped := Parser.scoped_expression ⟨Native.Guarded, loose, loose, none⟩
                (show none = Scope.top.function? from rfl) (List.cons_ne_nil t ts) []
              exact benign_declaring hs (Parser.grows_expression .top _) hscoped (fun _ h => h)
                fun _ _ _ _ h => h
            · exact ⟨hs, Failure.benign_error _⟩

theorem benign_load (hs : s.Sound loose) {source : String}
    (hloose : ∀ n, Redeclared ([source].filter s.accepts) n → loose n) :
    After (Exec.load source) s (fun _ t => t.Sound loose)
      fun e t => t.Sound loose ∧ e.Benign loose := by
  rw [Exec.load, after_bind]
  refine (benign_parse hs hloose).mono ?_ fun _ _ h => h
  rintro stmts t ⟨ht, hstmts⟩
  refine ⟨ht.idle, ht.env, ?_⟩
  change ∀ r ∈ blockReferences (t.program ++ stmts), t.env.Admits loose none r
  rw [Parser.blockReferences_append, List.forall_mem_append]
  exact ⟨ht.program, hstmts⟩

theorem benign_runProgram (hs : s.Sound loose) (fuel : Nat) :
    After (Exec.runProgram fuel) s (fun _ t => t.Sound loose)
      fun e t => t.Sound loose ∧ e.Benign loose := by
  rw [Exec.runProgram, after_bind, after_get]
  exact benign_runStmts hs fuel hs.program

theorem benign_exec (hs : s.Sound loose) (fuel : Nat) {source : String}
    (hloose : ∀ n, Redeclared ([source].filter s.accepts) n → loose n) :
    After (Exec.exec fuel source) s (fun _ t => t.Sound loose)
      fun e t => t.Sound loose ∧ e.Benign loose := by
  rw [Exec.exec, after_bind]
  refine (benign_parse hs hloose).mono ?_ fun _ _ h => h
  rintro stmts t ⟨ht, hstmts⟩
  exact benign_runStmts ht fuel hstmts

theorem benign_eval (hs : s.Sound loose) (fuel : Nat) (source : String) :
    After (Exec.eval fuel source) s (fun _ t => t.Sound loose)
      fun e t => t.Sound loose ∧ e.Benign loose := by
  rw [Exec.eval, after_bind]
  refine (benign_parseExpr hs source).mono ?_ fun _ _ h => h
  rintro e t ⟨ht, he⟩
  exact benign_evalExpr ht fuel he

/-- A line that cannot be parsed as an expression is accepted, or not, in the session that
this attempt has left. -/
theorem benign_evalLine (hs : s.Sound loose) (fuel : Nat) {source : String}
    (hloose : ∀ n, Redeclared ((Request.line source).accepted fuel s) n → loose n) :
    After (Exec.evalLine fuel source) s (fun _ t => t.Sound loose)
      fun e t => t.Sound loose ∧ e.Benign loose := by
  rw [Exec.evalLine, after_tryCatch, after_map]
  have heval := benign_eval hs fuel source
  unfold After at heval ⊢
  rw [Request.accepted] at hloose
  cases hend : Exec.eval fuel source s with
  | ok v t =>
      rw [hend] at heval
      exact heval
  | error e t =>
      rw [hend] at heval hloose
      dsimp only at heval hloose ⊢
      by_cases hkind : e.kind? = some .parse
      · rw [if_pos hkind] at hloose ⊢
        change After _ t _ _
        rw [after_bind]
        exact benign_exec heval.1 fuel hloose
      · rw [if_neg hkind]
        exact heval

/-- Every request keeps a session sound, and it is benign. -/
theorem Request.benign_perform (hs : s.Sound loose) {r : Request}
    (hr : r.Permitted Native.Careful) (fuel : Nat)
    (hloose : ∀ n, Redeclared (r.accepted fuel s) n → loose n) :
    After (r.perform fuel) s (fun _ t => t.Sound loose)
      fun e t => t.Sound loose ∧ e.Benign loose := by
  cases r with
  | load source =>
      rw [perform, after_bind]
      exact benign_load hs hloose
  | run =>
      rw [perform, after_bind]
      exact benign_runProgram hs fuel
  | exec source =>
      rw [perform, after_bind]
      exact benign_exec hs fuel hloose
  | interpret source =>
      rw [perform, after_bind, Exec.interpret, after_bind]
      refine (benign_load hs hloose).mono ?_ fun _ _ h => h
      intro _ t ht
      exact benign_runProgram ht fuel
  | eval source =>
      rw [perform, after_bind]
      exact benign_eval hs fuel source
  | line source =>
      rw [perform, after_bind]
      exact benign_evalLine hs fuel hloose
  | get name => exact hs
  | set name v => exact hs.set name v
  | call name args =>
      rw [perform, after_bind]
      exact benign_call hs fuel name args
  | provide name params native => exact hs.provide name params (Native.Careful.guarded hr)
  | library =>
      refine Session.withLibrary_of_steps (P := (Session.Sound · loose)) ?_ ?_ hs
      · intro f hf s' hs'
        exact hs'.provide f.name f.params (Library.guarded_library f hf)
      · intro name v s' hs'
        exact hs'.set name v

end Requests

theorem Redeclared.append_left {sources : List String} {name : String}
    (h : Redeclared sources name) (more : List String) : Redeclared (sources ++ more) name := by
  obtain ⟨source, hmem, hsource⟩ := h
  exact ⟨source, List.mem_append_left _ hmem, hsource⟩

theorem Redeclared.append_right {sources : List String} {name : String}
    (h : Redeclared sources name) (before : List String) :
    Redeclared (before ++ sources) name := by
  obtain ⟨source, hmem, hsource⟩ := h
  exact ⟨source, List.mem_append_right _ hmem, hsource⟩

/-- A request is benign, up to what was redeclared before and what it redeclares itself. -/
theorem Request.benign_after {accepted : List String} {s : Session}
    (hs : s.Sound (Redeclared accepted)) {r : Request} (hr : r.Permitted Native.Careful)
    (fuel : Nat) :
    After (r.perform fuel) s
      (fun _ t => t.Sound (Redeclared (accepted ++ r.accepted fuel s)))
      fun e t => t.Sound (Redeclared (accepted ++ r.accepted fuel s)) ∧
        e.Benign (Redeclared (accepted ++ r.accepted fuel s)) := by
  have hsound : s.Sound (Redeclared (accepted ++ r.accepted fuel s)) :=
    hs.mono fun n hn => hn.append_left _
  exact benign_perform hsound hr fuel fun n hn => hn.append_right _

/-- A session that a host can come to is sound, up to what its sources redeclare. -/
theorem Reachable.sound {accepted : List String} {s : Session}
    (h : Reachable Native.Careful accepted s) : s.Sound (Redeclared accepted) := by
  induction h with
  | start => exact ⟨rfl, Environment.sound_empty _ _, List.forall_mem_nil _⟩
  | answered h hr hrun ih => exact (Request.benign_after ih hr _).of_ok hrun
  | refused h hr hrun he ih => exact ((Request.benign_after ih hr _).of_error hrun).1

end Scriptlet
