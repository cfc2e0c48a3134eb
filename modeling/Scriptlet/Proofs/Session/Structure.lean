import Scriptlet.Proofs.Parsing.Locality
import Scriptlet.Proofs.Session.Code
import Scriptlet.Proofs.Session.Room

/-!
# Loops and jumps by their structure

A run answers `BREAK` and `CONTINUE` by labels: a jump bears the label of its loop, and the
signal goes up until a loop of that label takes it. The meaning that a reader has in mind
needs no labels. A jump acts on the innermost loop around it in the same body, and outside
of every loop it does nothing; `RETURN` ends the body, or the whole run outside of every
body; a loop over an array goes through the elements that the array had at its start.

`Structured` is that meaning. The main statement is `structured_semantics`: code that the
parser has accepted runs in the same way under both. What makes it true is that the parser
gives to every jump the label of the innermost loop around it, and none outside of loops.
-/

namespace Scriptlet

/-- How a statement ends. -/
inductive Completion where
  | normal
  | broke
  | continued
  | returned

namespace Structured

/-- Repeats the body while the test holds, for at most `fuel` rounds. -/
def whileLoop (test : Exec Value) (body : Exec Completion) : Nat → Exec Completion
  | 0 => throw .outOfFuel
  | fuel + 1 => do
      if (← test).holds then
        match ← body with
        | .normal | .continued => whileLoop test body fuel
        | .broke => return .normal
        | .returned => return .returned
      else return .normal

/-- Repeats the body for each of the values, after it is assigned. -/
def forLoop (assign : Value → Exec Unit) (body : Exec Completion) :
    List Value → Exec Completion
  | [] => return .normal
  | v :: vs => do
      assign v
      match ← body with
      | .normal | .continued => forLoop assign body vs
      | .broke => return .normal
      | .returned => return .returned

mutual

/-- Runs a statement, which stands in a loop of the same body or not. -/
def stmt (call : Caller) (fuel : Nat) (inLoop : Bool) : Stmt → Exec Completion
  | .expr e => do
      discard (evalExpr call e)
      return .normal
  | .cond test body => do
      if (← evalExpr call test).holds then block call fuel inLoop body else return .normal
  | .loop _ test body => whileLoop (evalExpr call test) (block call fuel true body) fuel
  | .each _ vars items body => do
      let v ← evalExpr call items
      forLoop (fun item => vars.forM (Exec.write · item)) (block call fuel true body) v.elements
  | .breakLoop _ => return if inLoop then .broke else .normal
  | .continueLoop _ => return if inLoop then .continued else .normal
  | .returnNow => return .returned

/-- Runs statements in their order, up to the first that does not end normally. -/
def block (call : Caller) (fuel : Nat) (inLoop : Bool) : List Stmt → Exec Completion
  | [] => return .normal
  | s :: ss => do
      match ← stmt call fuel inLoop s with
      | .normal => block call fuel inLoop ss
      | completion => return completion

end

/-- Runs the body of a function. No loop around the call is a loop around the body. -/
def runBody (call : Caller) (fuel : Nat) (frame : Frame) : Body → Exec Unit
  | .script stmts => discard (block call fuel false stmts)
  | .native run => Scriptlet.runBody call fuel frame (.native run)

/-- Calls a function, whose body may nest calls as deep as there is room. -/
def invoke (fuel : Nat) : Nat → Caller
  | 0 => callFunction fun _ _ => throw .outOfFuel
  | below + 1 => callFunction fun frame body => runBody (invoke fuel below) fuel frame body

/-- Runs statements outside of every function. -/
def runStmts (fuel : Nat) (stmts : List Stmt) : Exec Unit :=
  discard (block (invoke fuel maxFrames) fuel false stmts)

end Structured

/-! ### The labels of accepted programs -/

mutual

/-- Whether the jumps of a statement bear the label of the innermost loop around them, which
is `loop?` for those outside of its own loops. -/
def Stmt.Targets (loop? : Option Nat) : Stmt → Prop
  | .cond _ body => blockTargets loop? body
  | .loop label _ body => blockTargets (some label) body
  | .each label _ _ body => blockTargets (some label) body
  | .breakLoop target => target = loop?
  | .continueLoop target => target = loop?
  | .expr _ | .returnNow => True

/-- Whether the jumps of several statements bear the label of the innermost loop around
them. -/
def blockTargets (loop? : Option Nat) : List Stmt → Prop
  | [] => True
  | s :: ss => s.Targets loop? ∧ blockTargets loop? ss

end

theorem blockTargets_append {loop? : Option Nat} {stmts stmts' : List Stmt}
    (h : blockTargets loop? stmts) (h' : blockTargets loop? stmts') :
    blockTargets loop? (stmts ++ stmts') := by
  induction stmts with
  | nil => exact h'
  | cons s ss ih =>
      rw [blockTargets] at h
      rw [List.cons_append, blockTargets]
      exact ⟨h.1, ih h.2⟩

theorem Parser.Reads.targets {scope : Scope} {ts : List Token} {env env' : Environment}
    {stmts : List Stmt} (h : Reads scope ts env stmts env') : blockTargets scope.loop? stmts := by
  induction h with
  | nil => exact trivial
  | expr ht hx he hrest ih => exact ⟨trivial, ih⟩
  | separator ht hrest ih => exact ih
  | define ht hn hp hdefine hrest ih => exact ih
  | implement ht hn hk hb hbody hrest ihbody ihrest => exact ihrest
  | cond ht hhead hbody hrest ihbody ihrest => exact ⟨ihbody, ihrest⟩
  | loop ht hhead hbody hrest ihbody ihrest => exact ⟨ihbody, ihrest⟩
  | each ht hv hvars hne hhead hbody hrest ihbody ihrest => exact ⟨ihbody, ihrest⟩
  | returnNow ht hrest ih => exact ⟨trivial, ih⟩
  | breakLoop ht hrest ih => exact ⟨rfl, ih⟩
  | continueLoop ht hrest ih => exact ⟨rfl, ih⟩
  | braces ht hb hinner hrest ihinner ihrest => exact blockTargets_append ihinner ihrest

/-! ### Signals and completions -/

/-- The signal of a completion, for a statement whose innermost loop has the label `loop?`. -/
def Completion.signal (loop? : Option Nat) : Completion → Signal
  | normal => .next
  | broke => .breakLoop (loop?.getD 0)
  | continued => .continueLoop (loop?.getD 0)
  | returned => .returnNow

variable {call : Caller} {fuel : Nat}

theorem repeatWhile_eq_whileLoop (loop? : Option Nat) (label : Nat) (test : Exec Value)
    (body : Exec Completion) (fuel : Nat) :
    repeatWhile label test (Completion.signal (some label) <$> body) fuel =
      Completion.signal loop? <$> Structured.whileLoop test body fuel := by
  induction fuel with
  | zero => rfl
  | succ fuel ih =>
      rw [repeatWhile, Structured.whileLoop]
      simp only [map_bind, bind_map_left]
      refine bind_congr fun v => ?_
      split
      · rw [map_bind]
        refine bind_congr fun completion => ?_
        cases completion with
        | normal => exact ih
        | broke => simp [Completion.signal, Signal.afterRound]
        | continued => simp [Completion.signal, Signal.afterRound, ih]
        | returned => simp [Completion.signal, Signal.afterRound]
      · simp [Completion.signal]

theorem repeatEach_eq_forLoop (loop? : Option Nat) (label : Nat) (assign : Value → Exec Unit)
    (body : Exec Completion) (vs : List Value) :
    repeatEach label assign (Completion.signal (some label) <$> body) vs =
      Completion.signal loop? <$> Structured.forLoop assign body vs := by
  induction vs with
  | nil => rfl
  | cons v vs ih =>
      rw [repeatEach, Structured.forLoop]
      simp only [map_bind, bind_map_left]
      refine bind_congr fun _ => bind_congr fun completion => ?_
      cases completion with
      | normal => exact ih
      | broke => simp [Completion.signal, Signal.afterRound]
      | continued => simp [Completion.signal, Signal.afterRound, ih]
      | returned => simp [Completion.signal, Signal.afterRound]

/-- With the labels that the parser gives, signals are completions. -/
theorem exec_eq_structured (call : Caller) (fuel : Nat) :
    (∀ stmt : Stmt, ∀ loop?, stmt.Targets loop? →
        execStmt call fuel stmt =
          Completion.signal loop? <$> Structured.stmt call fuel loop?.isSome stmt) ∧
      ∀ stmts loop?, blockTargets loop? stmts →
        execBlock call fuel stmts =
          Completion.signal loop? <$> Structured.block call fuel loop?.isSome stmts := by
  apply execStmt.mutual_induct
  case case1 =>
    intro e loop? _
    rw [execStmt, Structured.stmt, map_bind]
    rfl
  case case2 =>
    intro test body ih loop? htargets
    rw [Stmt.Targets] at htargets
    rw [execStmt, Structured.stmt, map_bind]
    refine bind_congr fun v => ?_
    split
    · exact ih loop? htargets
    · rfl
  case case3 =>
    intro label test body ih loop? htargets
    rw [Stmt.Targets] at htargets
    rw [execStmt, Structured.stmt, ih (some label) htargets]
    exact repeatWhile_eq_whileLoop loop? label _ _ fuel
  case case4 =>
    intro label vars items body ih loop? htargets
    rw [Stmt.Targets] at htargets
    rw [execStmt, Structured.stmt, ih (some label) htargets, map_bind]
    exact bind_congr fun v => repeatEach_eq_forLoop loop? label _ _ v.elements
  case case10 =>
    intro loop? _
    rw [execBlock, Structured.block]
    rfl
  case case11 =>
    intro stmt stmts ihstmt ih loop? htargets
    rw [blockTargets] at htargets
    rw [execBlock, Structured.block, ihstmt loop? htargets.1, map_bind, bind_map_left]
    refine bind_congr fun completion => ?_
    cases completion with
    | normal => exact ih loop? htargets.2
    | broke => rfl
    | continued => rfl
    | returned => rfl
  case case9 =>
    intro loop? _
    rw [execStmt, Structured.stmt]
    rfl
  -- The jumps, outside of every loop and inside of one.
  all_goals
    intros
    rename_i htargets
    rw [Stmt.Targets] at htargets
    subst htargets
    rw [execStmt, Structured.stmt]
    rfl

/-- Whether a completion is no jump to a loop. -/
def Completion.Final (completion : Completion) : Prop :=
  completion = .normal ∨ completion = .returned

theorem final_whileLoop (test : Exec Value) (body : Exec Completion) (fuel : Nat) (s : Session) :
    After (Structured.whileLoop test body fuel) s (fun completion _ => completion.Final)
      fun _ _ => True := by
  induction fuel generalizing s with
  | zero => exact trivial
  | succ fuel ih =>
      rw [Structured.whileLoop, after_bind]
      refine After.of_forall _ _ (fun v t => ?_) fun _ _ => trivial
      split
      · rw [after_bind]
        refine After.of_forall _ _ (fun completion u => ?_) fun _ _ => trivial
        cases completion with
        | normal => exact ih u
        | broke => exact .inl rfl
        | continued => exact ih u
        | returned => exact .inr rfl
      · exact .inl rfl

theorem final_forLoop (assign : Value → Exec Unit) (body : Exec Completion) (vs : List Value)
    (s : Session) :
    After (Structured.forLoop assign body vs) s (fun completion _ => completion.Final)
      fun _ _ => True := by
  induction vs generalizing s with
  | nil => exact .inl rfl
  | cons v vs ih =>
      rw [Structured.forLoop, after_bind]
      refine After.of_forall _ _ (fun _ t => ?_) fun _ _ => trivial
      rw [after_bind]
      refine After.of_forall _ _ (fun completion u => ?_) fun _ _ => trivial
      cases completion with
      | normal => exact ih u
      | broke => exact .inl rfl
      | continued => exact ih u
      | returned => exact .inr rfl

/-- Outside of every loop, nothing ends with a jump. -/
theorem final_stmt_block (call : Caller) (fuel : Nat) :
    (∀ (stmt : Stmt) (s : Session), After (Structured.stmt call fuel false stmt) s
        (fun completion _ => completion.Final) fun _ _ => True) ∧
      ∀ stmts s, After (Structured.block call fuel false stmts) s
        (fun completion _ => completion.Final) fun _ _ => True := by
  apply execStmt.mutual_induct
  case case1 =>
    intro e s
    rw [Structured.stmt, after_bind]
    exact After.of_forall _ _ (fun _ _ => .inl rfl) fun _ _ => trivial
  case case2 =>
    intro test body ih s
    rw [Structured.stmt, after_bind]
    refine After.of_forall _ _ (fun v t => ?_) fun _ _ => trivial
    split
    · exact ih t
    · exact .inl rfl
  case case3 =>
    intro label test body _ s
    rw [Structured.stmt]
    exact final_whileLoop _ _ _ s
  case case4 =>
    intro label vars items body _ s
    rw [Structured.stmt, after_bind]
    exact After.of_forall _ _ (fun v t => final_forLoop _ _ _ t) fun _ _ => trivial
  case case9 =>
    intro s
    rw [Structured.stmt]
    exact .inr rfl
  case case10 =>
    intro s
    rw [Structured.block]
    exact .inl rfl
  case case11 =>
    intro stmt stmts ihstmt ih s
    rw [Structured.block, after_bind]
    refine (ihstmt s).mono (fun completion t hfinal => ?_) fun _ _ _ => trivial
    rcases hfinal with rfl | rfl
    · exact ih t
    · exact .inr rfl
  all_goals
    intros
    rw [Structured.stmt]
    exact .inl rfl

/-! ### Calls -/

/-- Whether a body bears the labels that the parser gives. -/
def Body.Targeted : Body → Prop
  | .script stmts => blockTargets none stmts
  | .native _ => True

theorem established_targeted : Session.Established (fun _ => True) Body.Targeted where
  reads {scope ts env stmts env'} hscope _ hreads := by
    have htargets := hreads.targets
    rw [hscope] at htargets
    exact htargets
  append h h' := blockTargets_append h h'

theorem upheld_targeted :
    Upheld (Session.Code · Body.Targeted) (fun _ => True) fun _ => True where
  cell _ _ _ := trivial
  setCell v hs _ _ := (Session.kept_setCell _ _ v).code hs
  error _ _ := trivial

theorem discard_execBlock (call : Caller) (fuel : Nat) {stmts : List Stmt}
    (h : blockTargets none stmts) :
    discard (execBlock call fuel stmts) = discard (Structured.block call fuel false stmts) := by
  rw [(exec_eq_structured call fuel).2 stmts none h]
  simp only [discard, Functor.discard, map_const, Function.comp_apply, Functor.map_map]
  rfl

theorem agrees_structured_invoke (fuel room index : Nat) (sources : List Source)
    (pos? : Option Position) :
    Exec.Agrees (Session.Code · Body.Targeted) (invoke fuel room index sources pos?)
      (Structured.invoke fuel room index sources pos?) := by
  intro s hs
  constructor
  · induction room generalizing index sources pos? s with
    | zero => rfl
    | succ below ih =>
        rw [invoke, Structured.invoke]
        refine callFunction_congr index sources pos? fun f frame t hroom hf ht => ?_
        have ht : t.Code Body.Targeted := ht.code hs
        have hcall : ∀ index' sources' pos?', Exec.Agrees (Session.Code · Body.Targeted)
            (invoke fuel below index' sources' pos?')
            (Structured.invoke fuel below index' sources' pos?') := by
          intro index' sources' pos?' u hu
          refine ⟨ih index' sources' pos?' u hu, ?_⟩
          have hkept := kept_invoke fuel below index' sources' pos?' u u (Session.Kept.refl u)
          exact hkept.mono (fun _ _ h => h.1.code hu) fun _ _ h => h.1.code hu
        rw [runBody_congr upheld_targeted hcall frame (fun _ _ _ => rfl) (s := t.enter frame hroom)
          ⟨ht.program, ht.bodies⟩]
        have htargeted := hs.bodies f (List.mem_of_getElem? hf)
        cases hbody : f.body with
        | native run => rfl
        | script stmts =>
            rw [hbody] at htargeted
            rw [Structured.runBody, runBody, discard_execBlock _ fuel htargeted]
  · have hkept := kept_invoke fuel room index sources pos? s s (Session.Kept.refl s)
    exact hkept.mono (fun _ _ h => h.1.code hs) fun _ _ h => h.1.code hs

/-! ### Accepted code -/

/-- Code that the parser has accepted, in one or in several parts. -/
inductive Authored : List Stmt → Prop where
  | parsed {scope : Scope} {ts : List Token} {env env' : Environment} {stmts : List Stmt}
      (hscope : scope.loop? = none) (h : Parser.block scope ts env = .ok stmts env') :
      Authored stmts
  | append {stmts stmts' : List Stmt} (h : Authored stmts) (h' : Authored stmts') :
      Authored (stmts ++ stmts')

/-- Whether the parser has accepted a body, if the host does not provide it. -/
def Body.Authored : Body → Prop
  | .script stmts => Scriptlet.Authored stmts
  | .native _ => True

theorem Authored.targets {stmts : List Stmt} (h : Authored stmts) : blockTargets none stmts := by
  induction h with
  | @parsed scope ts env env' stmts hscope h =>
      have hreads := (Parser.reads_block scope ts env).of_ok h
      have htargets := hreads.targets
      rw [hscope] at htargets
      exact htargets
  | append h h' ih ih' => exact blockTargets_append ih ih'

theorem Body.Authored.targeted {body : Body} (h : body.Authored) : body.Targeted := by
  cases body with
  | script stmts => exact Scriptlet.Authored.targets h
  | native run => exact trivial

theorem established_authored : Session.Established (fun _ => True) Body.Authored where
  reads hscope _ hreads := .parsed hscope hreads.continues.block_eq
  append h h' := .append h h'

theorem lasting_authored : Lasting (Session.Code · Body.Authored) where
  kept ht hs := ht.code hs
  parse _ _ hs :=
    (hs.parse established_authored fun _ _ _ _ => trivial).mono (fun _ _ h => ⟨h.1, trivial⟩)
      fun _ _ h => ⟨h.1, trivial⟩
  load _ _ hs :=
    (hs.load established_authored fun _ _ _ _ => trivial).mono (fun _ _ h => ⟨h, trivial⟩)
      fun _ _ h => ⟨h.1, trivial⟩
  parseExpr source _ hs :=
    (hs.parseExpr source).mono (fun _ _ h => ⟨h, trivial⟩) fun _ _ h => ⟨h.1, trivial⟩
  set name v hs := hs.set name v
  provide name params _ hs := hs.provide name params trivial

/-- In every session that a host can come to, the parser has accepted all code. -/
theorem Reachable.authored {natives : Native → Prop} {accepted : List String} {s : Session}
    (h : Reachable natives accepted s) : s.Code Body.Authored := by
  refine lasting_authored.reachable (Session.code_empty ?_) h
  have hnil : Parser.block .top [] .empty = .ok [] .empty := by
    rw [Parser.block_nil]
    rfl
  exact .parsed rfl hnil

/-! ### Runs -/

theorem runStmts_eq_structured {s : Session} (hs : s.Code Body.Targeted) (fuel : Nat)
    {stmts : List Stmt} (hstmts : blockTargets none stmts) :
    Exec.runStmts fuel stmts s = Structured.runStmts fuel stmts s := by
  have hcall := agrees_structured_invoke fuel maxFrames
  have hblock := (agrees_execStmt_execBlock upheld_targeted hcall fuel fuel).2 stmts fun _ => rfl
  rw [Exec.runStmts, (hblock.discard s hs).1, discard_execBlock _ fuel hstmts]
  rfl

/-- Accepted code runs as its structure says, whatever the session holds: programs, sources,
expressions and calls end in the same way, with the same session and the same printed text.
No jump to a loop gets out of a body or of a whole program. -/
theorem structured_semantics {s : Session} (hs : s.Code Body.Authored) (fuel : Nat) :
    Exec.runProgram fuel s = Structured.runStmts fuel s.program s ∧
      (∀ source, Exec.exec fuel source s = (Exec.parse source >>= Structured.runStmts fuel) s) ∧
      (∀ e, evalExpr (invoke fuel maxFrames) e s =
        evalExpr (Structured.invoke fuel maxFrames) e s) ∧
      (∀ index sources pos?, invoke fuel maxFrames index sources pos? s =
        Structured.invoke fuel maxFrames index sources pos? s) ∧
      ∀ stmts, Authored stmts →
        Exec.runStmts fuel stmts s = Structured.runStmts fuel stmts s ∧
        ∀ call t, After (execBlock call fuel stmts) t
          (fun signal _ => signal = .next ∨ signal = .returnNow) fun _ _ => True := by
  have htargeted : s.Code Body.Targeted :=
    ⟨Body.Authored.targeted hs.program, fun f hf => (hs.bodies f hf).targeted⟩
  refine ⟨?_, ?_, ?_, ?_, ?_⟩
  · exact runStmts_eq_structured htargeted fuel htargeted.program
  · intro source
    refine bind_congr_right fun stmts t hparse => ?_
    obtain ⟨ht, hstmts⟩ :=
      (htargeted.parse established_targeted fun _ _ _ _ => trivial).of_ok hparse
    exact runStmts_eq_structured ht fuel hstmts
  · intro e
    have hcall := agrees_structured_invoke fuel maxFrames
    exact ((agrees_terms_items_expr_arguments upheld_targeted hcall).2.2.1 e s htargeted).1
  · intro index sources pos?
    exact (agrees_structured_invoke fuel maxFrames index sources pos? s htargeted).1
  · intro stmts hstmts
    refine ⟨runStmts_eq_structured htargeted fuel hstmts.targets, fun call t => ?_⟩
    rw [(exec_eq_structured call fuel).2 stmts none hstmts.targets, after_map]
    refine ((final_stmt_block call fuel).2 stmts t).mono ?_ fun _ _ h => h
    rintro completion _ (rfl | rfl)
    · exact .inl rfl
    · exact .inr rfl

/-- Jumps in a loop, in a body that is called from a loop, and in a block outside of both. -/
def jumps : String :=
  "DEF f; IMP f \x7b BREAK; f = 1; \x7d
  FOR i IN a \x7b WHILE i \x7b BREAK; \x7d f(); \x7d \x7b RETURN; \x7d"

theorem structured_semantics_jumps :
    ∃ s, Exec.load jumps Session.empty = .ok () s ∧
      Exec.runProgram 5 s = Structured.runStmts 5 s.program s := by
  have hempty : Session.empty.Code Body.Authored := (@Reachable.start fun _ => True).authored
  have hload := Session.load_of_accepts
    (show Session.empty.accepts jumps = true by decide +kernel)
  have hs := (hempty.load established_authored fun _ _ _ _ => trivial).of_ok hload
  exact ⟨_, hload, (structured_semantics hs 5).1⟩

end Scriptlet
