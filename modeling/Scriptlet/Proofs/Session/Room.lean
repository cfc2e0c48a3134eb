import Scriptlet.Proofs.Session.Kept

/-!
# Room for calls

Calls are defined by recursion on `room`, how deep they may still be nested. This is
no part of the language: the limit on frames is met before the room is used up. The
main statement is `invoke_maxFrames`, which says so by an equation without room: the
calls that a body makes are calls like the one that it is run by.

It is proved by comparing ways of calling that differ in their room. They agree only
where enough frames are in progress, so `Exec.Agrees` compares actions in the sessions
that satisfy an invariant, and asks that the invariant is kept.
-/

namespace Scriptlet

namespace Exec

variable {α β : Type} {inv : Session → Prop}

/-- Whether two actions are the same in all sessions that satisfy `inv`, and keep `inv`. -/
def Agrees (inv : Session → Prop) (x y : Exec α) : Prop :=
  ∀ s, inv s → x s = y s ∧ After x s (fun _ t => inv t) fun _ t => inv t

/-- An action that keeps the invariant agrees with itself. -/
theorem Agrees.of_upholds {result : α → Prop} {x : Exec α}
    (h : Upholds inv (fun _ => True) result x) : Agrees inv x x := by
  intro s hs
  exact ⟨rfl, (h s hs).mono (fun _ _ ht => ht.1) fun _ _ ht => ht.1⟩

theorem Agrees.pure (a : α) : Agrees inv (pure a) (pure a) :=
  fun _ hs => ⟨rfl, hs⟩

theorem Agrees.bind {x y : Exec α} {f g : α → Exec β} (hxy : Agrees inv x y)
    (hfg : ∀ a, Agrees inv (f a) (g a)) : Agrees inv (x >>= f) (y >>= g) := by
  intro s hs
  obtain ⟨heq, hkept⟩ := hxy s hs
  rw [after_bind]
  constructor
  · cases hx : x s with
    | ok a t =>
        have hy : y s = .ok a t := heq ▸ hx
        rw [bind_of_ok hx, bind_of_ok hy]
        exact (hfg a t (hkept.of_ok hx)).1
    | error e t =>
        have hy : y s = .error e t := heq ▸ hx
        rw [bind_of_error hx, bind_of_error hy]
  · refine hkept.mono ?_ fun _ _ ht => ht
    intro a t ht
    exact (hfg a t ht).2

theorem Agrees.discard {x y : Exec α} (h : Agrees inv x y) :
    Agrees inv (discard x) (discard y) :=
  h.bind fun _ => Agrees.pure ()

theorem Agrees.get_bind {f g : Session → Exec β}
    (hfg : ∀ start, inv start → Agrees inv (f start) (g start)) :
    Agrees inv (get >>= f) (get >>= g) :=
  fun s hs => hfg s hs s hs

end Exec

/-! ### Programs under two ways of calling -/

section Programs

variable {inv : Session → Prop} {call call' : Caller}

theorem agrees_terms_items_expr_arguments (h : Upheld inv (fun _ => True) fun _ => True)
    (hcall : ∀ index sources pos?,
      Exec.Agrees inv (call index sources pos?) (call' index sources pos?)) :
    (∀ start yard ts, inv start →
        Exec.Agrees inv (sortTerms call start yard ts) (sortTerms call' start yard ts)) ∧
      (∀ items, Exec.Agrees inv (evalItems call items) (evalItems call' items)) ∧
      (∀ e : Expr, Exec.Agrees inv (evalExpr call e) (evalExpr call' e)) ∧
      ∀ args, Exec.Agrees inv (evalArguments call args) (evalArguments call' args) := by
  have hread {start : Session} (hstart : inv start) (slot : Slot) :
      Exec.Agrees inv (Exec.readIn start slot) (Exec.readIn start slot) :=
    Exec.Agrees.of_upholds (h.upholds_readIn hstart trivial)
  have hpart {α : Type} (x : Except Error α) :
      Exec.Agrees inv (Exec.ofExcept x) (Exec.ofExcept x) := by
    cases x with
    | ok a => exact Exec.Agrees.pure a
    | error e => exact fun _ hs => ⟨rfl, hs⟩
  apply sortTerms.mutual_induct
  case case1 =>
    intro terms pos ih
    rw [evalExpr, evalExpr]
    refine Exec.Agrees.get_bind fun start hstart => ?_
    refine Exec.Agrees.bind ?_ fun _ => ?_
    · refine Exec.Agrees.of_upholds (Exec.Upholds.forM fun slot _ => ?_)
      exact (h.upholds_readIn hstart trivial).discard
    · refine (ih start hstart).bind fun yard => (hpart _).bind fun entries => ?_
      exact Exec.Agrees.of_upholds (h.upholds_evaluate pos fun _ _ _ _ => trivial)
  case case2 =>
    rw [evalArguments, evalArguments]
    exact Exec.Agrees.pure []
  case case3 =>
    intro slot args ih
    rw [evalArguments, evalArguments]
    refine (Exec.Agrees.get_bind fun start hstart => hread hstart slot).discard.bind fun _ => ?_
    exact ih.bind fun sources => Exec.Agrees.pure _
  case case4 =>
    intro v args ih
    rw [evalArguments, evalArguments]
    exact ih.bind fun sources => Exec.Agrees.pure _
  case case5 =>
    intro e args ihe ih
    rw [evalArguments, evalArguments]
    exact ihe.bind fun v => ih.bind fun sources => Exec.Agrees.pure _
  case case6 =>
    rw [evalItems, evalItems]
    exact Exec.Agrees.pure []
  case case7 =>
    intro e es ihe ih
    rw [evalItems, evalItems]
    exact ihe.bind fun v => ih.bind fun vs => Exec.Agrees.pure _
  case case8 =>
    intro start yard _
    rw [sortTerms, sortTerms]
    exact Exec.Agrees.pure yard
  case case9 =>
    intro start yard v ts ih hstart
    rw [sortTerms, sortTerms]
    exact ih hstart
  case case10 =>
    intro start yard slot ts ih hstart
    rw [sortTerms, sortTerms]
    exact (hread hstart slot).bind fun v => ih v hstart
  case case11 =>
    intro start yard function name args pos ts ihargs ih hstart
    rw [sortTerms, sortTerms]
    refine ihargs.bind fun sources => ?_
    exact (hcall function sources (some pos)).bind fun frame => ih frame hstart
  case case12 =>
    intro start yard items ts ihitems ih hstart
    rw [sortTerms, sortTerms]
    exact ihitems.bind fun vs => ih vs hstart
  case case13 =>
    intro start yard o pos ts ih hstart
    rw [sortTerms, sortTerms]
    exact ih hstart
  case case14 =>
    intro start yard pos ts ih hstart
    rw [sortTerms, sortTerms]
    exact ih hstart
  case case15 =>
    intro start yard pos ts ih hstart
    rw [sortTerms, sortTerms]
    exact (hpart _).bind fun closed => ih closed hstart

theorem agrees_repeatWhile (label : Nat) {test test' : Exec Value} {body body' : Exec Signal}
    (htest : Exec.Agrees inv test test') (hbody : Exec.Agrees inv body body') (fuel : Nat) :
    Exec.Agrees inv (repeatWhile label test body fuel) (repeatWhile label test' body' fuel) := by
  induction fuel with
  | zero => exact fun _ hs => ⟨rfl, hs⟩
  | succ fuel ih =>
      rw [repeatWhile, repeatWhile]
      refine htest.bind fun v => ?_
      split
      · refine hbody.bind fun signal => ?_
        split
        · exact ih
        · exact Exec.Agrees.pure _
      · exact Exec.Agrees.pure _

theorem agrees_repeatEach (label : Nat) {assign : Value → Exec Unit} {body body' : Exec Signal}
    (hassign : ∀ v, Exec.Agrees inv (assign v) (assign v)) (hbody : Exec.Agrees inv body body')
    (vs : List Value) :
    Exec.Agrees inv (repeatEach label assign body vs) (repeatEach label assign body' vs) := by
  induction vs with
  | nil => exact Exec.Agrees.pure _
  | cons v vs ih =>
      rw [repeatEach, repeatEach]
      refine (hassign v).bind fun _ => hbody.bind fun signal => ?_
      split
      · exact ih
      · exact Exec.Agrees.pure _

/-- The bound on loops makes no difference where there is no conditional loop. -/
theorem agrees_execStmt_execBlock (h : Upheld inv (fun _ => True) fun _ => True)
    (hcall : ∀ index sources pos?,
      Exec.Agrees inv (call index sources pos?) (call' index sources pos?)) (fuel fuel' : Nat) :
    (∀ stmt : Stmt, (stmt.hasWhile → fuel = fuel') →
        Exec.Agrees inv (execStmt call fuel stmt) (execStmt call' fuel' stmt)) ∧
      ∀ stmts, (blockHasWhile stmts → fuel = fuel') →
        Exec.Agrees inv (execBlock call fuel stmts) (execBlock call' fuel' stmts) := by
  have hexpr := (agrees_terms_items_expr_arguments h hcall).2.2.1
  apply execStmt.mutual_induct
  case case1 =>
    intro e _
    rw [execStmt, execStmt]
    exact (hexpr e).discard.bind fun _ => Exec.Agrees.pure _
  case case2 =>
    intro test body ih hfuel
    rw [Stmt.hasWhile] at hfuel
    rw [execStmt, execStmt]
    refine (hexpr test).bind fun v => ?_
    split
    · exact ih hfuel
    · exact Exec.Agrees.pure _
  case case3 =>
    intro label test body ih hfuel
    obtain rfl : fuel = fuel' := hfuel (by rw [Stmt.hasWhile])
    rw [execStmt, execStmt]
    exact agrees_repeatWhile label (hexpr test) (ih fun _ => rfl) fuel
  case case4 =>
    intro label vars items body ih hfuel
    rw [Stmt.hasWhile] at hfuel
    rw [execStmt, execStmt]
    refine (hexpr items).bind fun v =>
      agrees_repeatEach label (fun item => ?_) (ih hfuel) v.elements
    refine Exec.Agrees.of_upholds (Exec.Upholds.forM fun slot _ => ?_)
    exact h.upholds_write trivial item
  case case10 =>
    intro _
    rw [execBlock, execBlock]
    exact Exec.Agrees.pure _
  case case11 =>
    intro stmt stmts ihstmt ih hfuel
    rw [blockHasWhile, Bool.or_eq_true] at hfuel
    rw [execBlock, execBlock]
    refine (ihstmt fun hw => hfuel (.inl hw)).bind fun signal => ?_
    cases signal with
    | next => exact ih fun hw => hfuel (.inr hw)
    | breakLoop label => exact Exec.Agrees.pure _
    | continueLoop label => exact Exec.Agrees.pure _
    | returnNow => exact Exec.Agrees.pure _
  all_goals
    intros
    rw [execStmt, execStmt]
    exact Exec.Agrees.pure _

/-- A body does the same under two ways of calling that agree. -/
theorem runBody_congr (h : Upheld inv (fun _ => True) fun _ => True)
    (hcall : ∀ index sources pos?,
      Exec.Agrees inv (call index sources pos?) (call' index sources pos?))
    {fuel fuel' : Nat} (frame : Frame) {body : Body}
    (hfuel : ∀ stmts, body = .script stmts → blockHasWhile stmts → fuel = fuel')
    {s : Session} (hs : inv s) :
    runBody call fuel frame body s = runBody call' fuel' frame body s := by
  cases body with
  | script stmts =>
      have hblock := (agrees_execStmt_execBlock h hcall fuel fuel').2 stmts (hfuel stmts rfl)
      exact (hblock.discard s hs).1
  | native run => rfl

end Programs

/-! ### Calls -/

namespace Exec

variable {s : Session} {frame : Frame} {body : Exec Unit} {pos? : Option Position}

theorem pushFrame_eq_ok (h : s.frames.length < maxFrames) :
    pushFrame frame pos? s = .ok () (s.enter frame h) := by
  rw [pushFrame, bind_of_ok (show (get : Exec Session) s = .ok s s from rfl), dif_pos h]
  rfl

theorem withFrame_tooDeep (h : ¬ s.frames.length < maxFrames) :
    withFrame frame pos? body s = .error (.error ⟨.callDepth frame.function, pos?⟩) s := by
  have hpush : pushFrame frame pos? s = .error (.error ⟨.callDepth frame.function, pos?⟩) s := by
    rw [pushFrame, bind_of_ok (show (get : Exec Session) s = .ok s s from rfl), dif_neg h]
    rfl
  rw [withFrame, bind_of_error hpush]

/-- A call does the same with bodies that do the same in its frame. -/
theorem withFrame_congr {body' : Exec Unit}
    (h : ∀ hroom, body (s.enter frame hroom) = body' (s.enter frame hroom)) :
    withFrame frame pos? body s = withFrame frame pos? body' s := by
  by_cases hroom : s.frames.length < maxFrames
  · rw [withFrame, withFrame, bind_of_ok (pushFrame_eq_ok hroom),
      bind_of_ok (pushFrame_eq_ok hroom)]
    refine bind_congr_left ?_
    cases hbody : body (s.enter frame hroom) with
    | ok a t => rw [tryCatch_of_ok hbody, tryCatch_of_ok ((h hroom).symm.trans hbody)]
    | error e t => rw [tryCatch_of_error hbody, tryCatch_of_error ((h hroom).symm.trans hbody)]
  · rw [withFrame_tooDeep hroom, withFrame_tooDeep hroom]

end Exec

/-- A call does the same with ways of running its body that agree one frame deeper. -/
theorem callFunction_congr {run run' : Frame → Body → Exec Unit} (index : Nat)
    (sources : List Source) (pos? : Option Position) {s : Session}
    (h : ∀ f frame t hroom, s.env.functions[index]? = some f → s.Kept t →
      run frame f.body (Session.enter t frame hroom) =
        run' frame f.body (Session.enter t frame hroom)) :
    callFunction run index sources pos? s = callFunction run' index sources pos? s := by
  rw [callFunction, callFunction]
  refine bind_congr_right fun start t hstart => ?_
  cases hstart
  cases hf : s.env.functions[index]? with
  | none => rfl
  | some f =>
      dsimp only
      refine bind_congr_right fun _ u hmodify => ?_
      cases hmodify
      have hextended : s.Kept (s.modifyFunction index fun g =>
          { g with params := Function.paramsFor f.params sources.length }) := by
        refine Session.kept_modifyFunction fun g hg => ?_
        rw [hf] at hg
        cases hg
        exact f.kept_paramsFor sources.length
      refine bind_congr_right fun args u hargs => bind_congr_left ?_
      have hread (v : Session) : Exec.Upholds v.Kept (fun _ => True)
          (fun bs => bs.length = sources.length) (sources.mapM Source.read) :=
        Exec.Upholds.mapM ((upheld_kept v).upholds_sourceRead fun _ _ => trivial)
      have hkept := ((hread _ _ (Session.Kept.refl _)).of_ok hargs).1
      exact Exec.withFrame_congr fun hroom => h f _ u hroom hf (hextended.trans hkept)

/-- Whether the room is ample: the limit on frames is met before it is used up. -/
def Session.Ample (room : Nat) (s : Session) : Prop :=
  maxFrames ≤ room + s.frames.length

theorem Session.Kept.ample {room : Nat} {s t : Session} (h : s.Kept t) (hs : s.Ample room) :
    t.Ample room := by
  rw [Ample, h.frames_length]
  exact hs

/-- The frame of a call makes up for the room that the call takes. -/
theorem Session.Ample.enter {below : Nat} {s t : Session} (hs : s.Ample (below + 1))
    (ht : s.Kept t) (frame : Frame) (hroom : t.frames.length < maxFrames) :
    (t.enter frame hroom).Ample below := by
  have hdeeper : (t.enter frame hroom).frames.length = s.frames.length + 1 :=
    congrArg (· + 1) ht.frames_length
  rw [Ample] at hs ⊢
  omega

theorem upheld_ample (room : Nat) :
    Upheld (Session.Ample room) (fun _ => True) fun _ => True where
  cell _ _ _ := trivial
  setCell v hs _ _ := (Session.kept_setCell _ _ v).ample hs
  error _ _ := trivial

/-- Where the room is ample, one more makes no difference. -/
theorem invoke_succ (fuel : Nat) {room : Nat} (index : Nat) (sources : List Source)
    (pos? : Option Position) {s : Session} (hs : s.Ample room) :
    invoke fuel room index sources pos? s = invoke fuel (room + 1) index sources pos? s := by
  induction room generalizing index sources pos? s with
  | zero =>
      rw [invoke, invoke]
      refine callFunction_congr index sources pos? fun f frame t hroom _ ht => ?_
      have hfull : maxFrames ≤ s.frames.length := by simpa [Session.Ample] using hs
      have := ht.frames_length
      omega
  | succ below ih =>
      rw [invoke, invoke]
      refine callFunction_congr index sources pos? fun f frame t hroom _ ht => ?_
      have hcall : ∀ index' sources' pos?', Exec.Agrees (Session.Ample below)
          (invoke fuel below index' sources' pos?')
          (invoke fuel (below + 1) index' sources' pos?') := by
        intro index' sources' pos?' u hu
        refine ⟨ih index' sources' pos?' hu, ?_⟩
        have hkept := kept_invoke fuel below index' sources' pos?' u u (Session.Kept.refl u)
        exact hkept.mono (fun _ _ h => h.1.ample hu) fun _ _ h => h.1.ample hu
      refine runBody_congr (upheld_ample below) hcall frame (fun _ _ _ => rfl) ?_
      exact hs.enter ht frame hroom

/-- The calls that a body makes are calls like the one that it is run by. -/
theorem invoke_maxFrames (fuel : Nat) :
    invoke fuel maxFrames = callFunction (runBody (invoke fuel maxFrames) fuel) := by
  funext index sources pos? s
  have hs : s.Ample maxFrames := Nat.le_add_right _ _
  rw [invoke_succ fuel index sources pos? hs, invoke]

end Scriptlet
