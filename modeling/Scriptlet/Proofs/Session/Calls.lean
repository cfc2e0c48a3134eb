import Scriptlet.Proofs.Session.Room

/-!
# What a call does

A call reads its arguments, runs the body with a frame of its own, and copies back the
parameters that are passed by reference. `Called` says this as a rule, with one case for
each way in which a call ends, and in terms of the body's own outcome only. The main
statement is `invoke_effect`: calls follow the rule in every session, so the frames of
the callers are out of reach for the body, and a call that fails has written to no cell
on its own.

Assignments are lists of a slot and a value each. `Session.assign` carries them out in
their order, so the last one to a cell is the one that stays (`Session.cell_assign`).
-/

namespace Scriptlet

/-- Whether two slots stand for the same cell of a session. -/
def Slot.same : Slot → Slot → Bool
  | .global i _, .global j _ => i == j
  | .param i _, .param j _ => i == j
  | .result _, .result _ => true
  | .last f _, .last g _ => f == g
  | _, _ => false

/-- Whether a slot stands for a cell of the innermost call. -/
def Slot.isLocal : Slot → Bool
  | .param _ _ | .result _ => true
  | _ => false

theorem Slot.same_self (slot : Slot) : slot.same slot := by
  cases slot <;> simp [same]

theorem Slot.same_comm (a b : Slot) : a.same b = b.same a := by
  cases a <;> cases b <;> simp [same, Bool.beq_comm]

namespace Session

/-- The cells of a call are those of the innermost frame. -/
theorem cell_of_frames {s t : Session} {slot : Slot} (h : t.frames = s.frames)
    (hslot : slot.isLocal) : t.cell slot = s.cell slot := by
  cases slot with
  | param i name => simp only [cell, h]
  | result name => simp only [cell, h]
  | global i name => cases hslot
  | last f name => cases hslot

/-- Writing to a cell changes this cell and no other. -/
theorem cell_setCell {s : Session} {slot : Slot} (h : s.Has slot) (v : Value) (slot' : Slot) :
    (s.setCell slot v).cell slot' = if slot.same slot' then .ok v else s.cell slot' := by
  cases slot with
  | global i name =>
      cases slot' with
      | global j name' =>
          by_cases hij : i = j
          · subst hij
            have hi : i < s.env.globals.length := h
            simp [setCell, cell, Slot.same, Environment.global?_eq, hi]
          · cases hg : s.env.globals[j]? <;>
              simp [setCell, cell, Slot.same, Environment.global?_eq, hij, hg]
      | param j name' => rfl
      | result name' => rfl
      | last f name' => rfl
  | last f name =>
      cases slot' with
      | last g name' =>
          by_cases hfg : f = g
          · subst hfg
            have hf : f < s.env.functions.length := h
            simp [setCell, cell, Slot.same, modifyFunction, hf]
          · simp [setCell, cell, Slot.same, modifyFunction, hfg]
      | global j name' => rfl
      | param j name' => rfl
      | result name' => rfl
  | param i name =>
      obtain ⟨frame, rest, hframes, hi⟩ := h
      cases slot' with
      | param j name' =>
          by_cases hij : i = j
          · subst hij
            simp [setCell, cell, Slot.same, modifyFrame, Frame.setArg, hframes, hi]
          · simp [setCell, cell, Slot.same, modifyFrame, Frame.setArg, hframes, hij]
      | result name' => simp [setCell, cell, Slot.same, modifyFrame, Frame.setArg, hframes]
      | global j name' => rfl
      | last f name' => rfl
  | result name =>
      obtain ⟨frame, rest, hframes⟩ := h
      cases slot' with
      | param j name' => simp [setCell, cell, Slot.same, modifyFrame, Frame.setResult, hframes]
      | result name' => simp [setCell, cell, Slot.same, modifyFrame, Frame.setResult, hframes]
      | global j name' => rfl
      | last f name' => rfl

/-- The session after assignments, from the first on. -/
def assign (s : Session) (assignments : List (Slot × Value)) : Session :=
  assignments.foldl (fun s' a => s'.setCell a.1 a.2) s

theorem kept_assign (s : Session) (assignments : List (Slot × Value)) :
    s.Kept (s.assign assignments) := by
  induction assignments generalizing s with
  | nil => exact Kept.refl s
  | cons a assignments ih => exact (s.kept_setCell a.1 a.2).trans (ih (s.setCell a.1 a.2))

/-- After assignments a cell holds the last value that was assigned to it, and what it
held before if there was none. -/
theorem cell_assign {s : Session} {assignments : List (Slot × Value)}
    (h : ∀ a ∈ assignments, s.Has a.1) (slot : Slot) :
    (s.assign assignments).cell slot =
      match assignments.reverse.find? (·.1.same slot) with
      | some a => .ok a.2
      | none => s.cell slot := by
  induction assignments generalizing s with
  | nil => rfl
  | cons a assignments ih =>
      have hrest : ∀ a' ∈ assignments, (s.setCell a.1 a.2).Has a'.1 := by
        intro a' ha'
        exact (s.kept_setCell a.1 a.2).has (h a' (List.mem_cons_of_mem _ ha'))
      have hstep : s.assign (a :: assignments) = (s.setCell a.1 a.2).assign assignments := rfl
      rw [hstep, ih hrest, cell_setCell (h a List.mem_cons_self), List.reverse_cons,
        List.find?_append]
      cases assignments.reverse.find? (·.1.same slot) with
      | some a' => rfl
      | none => by_cases hsame : a.1.same slot <;> simp [hsame]

/-- Declaring parameters has no effect on cells. -/
theorem cell_modifyFunction {s : Session} (i : Nat) {change : Function → Function}
    (h : ∀ f, (change f).last = f.last) (slot : Slot) :
    (s.modifyFunction i change).cell slot = s.cell slot := by
  cases slot with
  | last f name =>
      simp only [cell, modifyFunction, Environment.functions_modifyFunction,
        List.getElem?_modify]
      cases s.env.functions[f]? with
      | none => rfl
      | some g => by_cases hif : i = f <;> simp [hif, h]
  | global j name => rfl
  | param j name => rfl
  | result name => rfl

end Session

/-! ### The parts of a call -/

namespace Source

/-- The value that an argument holds in a session. -/
def valueIn (s : Session) : Source → Except Panic Value
  | cell slot => s.cell slot
  | value v => .ok v

theorem Within.kept {s t : Session} {sources : List Source} (h : Within s.Has sources)
    (hst : s.Kept t) : Within t.Has sources :=
  fun slot hmem => hst.has (h slot hmem)

/-- Arguments whose cells are there have values. -/
theorem Within.exists_args {s : Session} {sources : List Source} (h : Within s.Has sources) :
    ∃ args : List Value, sources.map (valueIn s) = args.map .ok := by
  induction sources with
  | nil => exact ⟨[], rfl⟩
  | cons source sources ih =>
      obtain ⟨args, hargs⟩ := ih h.of_cons
      cases source with
      | value v =>
          refine ⟨v :: args, ?_⟩
          rw [List.map_cons, List.map_cons, hargs, valueIn]
      | cell slot =>
          obtain ⟨v, hv⟩ := Session.has_iff.1 (h slot List.mem_cons_self)
          refine ⟨v :: args, ?_⟩
          rw [List.map_cons, List.map_cons, hargs, valueIn, hv]

theorem read_eq_ok {s : Session} {source : Source} {v : Value} (h : source.valueIn s = .ok v) :
    source.read s = .ok v s := by
  cases source with
  | value w =>
      cases h
      rfl
  | cell slot =>
      have hcell : s.cell slot = .ok v := h
      have hread : Exec.readIn s slot = pure v := by rw [Exec.readIn, hcell]
      change Exec.readIn s slot s = .ok v s
      rw [hread]
      rfl

theorem mapM_read_eq_ok {s : Session} {sources : List Source} {args : List Value}
    (h : sources.map (valueIn s) = args.map .ok) : sources.mapM read s = .ok args s := by
  induction sources generalizing args with
  | nil =>
      cases args with
      | nil => rfl
      | cons v args => cases h
  | cons source sources ih =>
      cases args with
      | nil => cases h
      | cons v args =>
          obtain ⟨hv, hargs⟩ := List.cons.inj h
          rw [List.mapM_cons, bind_of_ok (read_eq_ok hv), bind_of_ok (ih hargs)]
          rfl

/-- The arguments of a call, once they are evaluated, can be read. -/
theorem within_evalArguments {call : Caller}
    (hcall : ∀ s₀, call.Upholds (Session.Kept s₀) (fun _ => True) fun _ => True)
    (arguments : List Argument) (s₀ : Session) :
    After (evalArguments call arguments) s₀ (fun sources s => s₀.Kept s ∧ Within s.Has sources)
      fun _ _ => True := by
  induction arguments generalizing s₀ with
  | nil =>
      rw [evalArguments]
      exact ⟨Session.Kept.refl s₀, within_nil _⟩
  | cons argument arguments ih =>
      cases argument with
      | cell slot =>
          rw [evalArguments, after_bind, after_discard, Exec.read, after_bind, after_get,
            Exec.readIn]
          cases hcell : s₀.cell slot with
          | error p => trivial
          | ok v =>
              rw [after_pure, after_bind]
              refine (ih s₀).mono ?_ fun _ _ _ => trivial
              rintro sources s ⟨hkept, hheld⟩
              exact ⟨hkept, hheld.cell (hkept.has (Session.has_iff.2 ⟨v, hcell⟩))⟩
      | literal v =>
          rw [evalArguments, after_bind]
          refine (ih s₀).mono ?_ fun _ _ _ => trivial
          rintro sources s ⟨hkept, hheld⟩
          exact ⟨hkept, hheld.value v⟩
      | expr e =>
          rw [evalArguments, after_bind]
          have heval : Exec.Upholds s₀.Kept (fun _ => True) (fun _ => True) (evalExpr call e) :=
            upholds_evalExpr (upheld_kept s₀) (hcall s₀) fun _ _ => trivial
          refine (heval s₀ (Session.Kept.refl s₀)).mono ?_ fun _ _ _ => trivial
          rintro v t ⟨ht, -⟩
          rw [after_bind]
          refine (ih t).mono ?_ fun _ _ _ => trivial
          rintro sources s ⟨hkept, hheld⟩
          exact ⟨ht.trans hkept, hheld.value v⟩

end Source

/-- The assignments to the arguments after a call, in the order of the parameters: each
parameter that is passed by reference goes to the cell of its argument, if it has one. -/
def copies (params : List Param) (sources : List Source) (vs : List Value) :
    List (Slot × Value) :=
  ((params.zip sources).zip vs).filterMap fun
    | ((p, .cell slot), v) => if p.byRef then some (slot, v) else none
    | ((_, .value _), _) => none

theorem copies_cell (p : Param) (params : List Param) (slot : Slot) (sources : List Source)
    (v : Value) (vs : List Value) :
    copies (p :: params) (.cell slot :: sources) (v :: vs) =
      if p.byRef then (slot, v) :: copies params sources vs else copies params sources vs := by
  by_cases href : p.byRef <;> simp [copies, href]

theorem Source.Within.copies {ok : Slot → Prop} {params : List Param} {sources : List Source}
    {vs : List Value} (h : Within ok sources) : ∀ a ∈ copies params sources vs, ok a.1 := by
  intro a ha
  obtain ⟨⟨⟨p, source⟩, v⟩, hmem, heq⟩ := List.mem_filterMap.1 ha
  cases source with
  | value w => cases heq
  | cell slot =>
      dsimp only at heq
      split at heq
      · cases heq
        exact h slot (List.of_mem_zip (List.of_mem_zip hmem).1).2
      · cases heq

theorem write_eq_ok {s : Session} {slot : Slot} (h : s.Has slot) (v : Value) :
    Exec.write slot v s = .ok () (s.setCell slot v) := by
  obtain ⟨w, hw⟩ := Session.has_iff.1 h
  have hread : Exec.read slot s = .ok w s := @Source.read_eq_ok s (.cell slot) w hw
  rw [Exec.write, bind_of_ok hread]
  rfl

/-- Copying back carries out its assignments, and cannot fail where the cells are there. -/
theorem copyBack_eq_ok (params : List Param) (sources : List Source) (vs : List Value) :
    ∀ s : Session, Source.Within s.Has sources →
      copyBack params sources vs s = .ok () (s.assign (copies params sources vs)) := by
  fun_induction copyBack params sources vs with
  | case1 p params sources v vs copyRest slot href ih =>
      intro s h
      rw [bind_of_ok (write_eq_ok (h slot List.mem_cons_self) v), copies_cell, if_pos href]
      exact ih _ (h.of_cons.kept (s.kept_setCell slot v))
  | case2 p params sources v vs copyRest slot href ih =>
      intro s h
      rw [copies_cell, if_neg href]
      exact ih s h.of_cons
  | case3 p params sources v vs copyRest w ih =>
      intro s h
      exact ih s h.of_cons
  | case4 params sources vs hnone =>
      intro s _
      have hcopies : copies params sources vs = [] := by
        cases params with
        | nil => rfl
        | cons p params =>
            cases sources with
            | nil => rfl
            | cons source sources =>
                cases vs with
                | nil => rfl
                | cons v vs => exact (hnone p params source sources v vs rfl rfl rfl).elim
      rw [hcopies]
      rfl

/-! ### The rule for calls -/

/-- The frame with which a call begins. -/
def Function.frame (f : Function) (args : List Value) : Frame :=
  Frame.start f.name (paramsFor f.params args.length).length args

/-- At its start a frame holds the arguments, and zero in all other cells. -/
theorem Function.getElem?_frame (f : Function) (args : List Value) (i : Nat) :
    (f.frame args).params[i]? =
      if i < (paramsFor f.params args.length).length then some (args[i]?.getD .zero) else none := by
  have hle := le_length_paramsFor f.params args.length
  rw [frame, Frame.start, List.getElem?_append, List.getElem?_replicate]
  by_cases hi : i < args.length
  · rw [if_pos hi, if_pos (Nat.lt_of_lt_of_le hi hle), List.getElem?_eq_getElem hi]
    rfl
  · rw [if_neg hi, List.getElem?_eq_none (Nat.le_of_not_lt hi)]
    have hiff : i - args.length < (paramsFor f.params args.length).length - args.length ↔
        i < (paramsFor f.params args.length).length := by
      omega
    simp only [hiff, Option.getD_none]

/-- The session with parameters declared for all arguments of a call. -/
def Session.fitted (s : Session) (index : Nat) (f : Function) (argCount : Nat) : Session :=
  s.modifyFunction index ({ · with params := Function.paramsFor f.params argCount })

theorem Session.kept_fitted {s : Session} {index : Nat} {f : Function}
    (hf : s.env.functions[index]? = some f) (argCount : Nat) :
    s.Kept (s.fitted index f argCount) := by
  refine kept_modifyFunction ?_
  intro g hg
  rw [hf] at hg
  cases hg
  exact f.kept_paramsFor argCount

/-- How a call of the function `f` at an index ends, by how its body ends. `run` is the
way in which bodies are run, and `args` are the values of the arguments. -/
inductive Called (run : Frame → Body → Exec Unit) (index : Nat) (f : Function)
    (sources : List Source) (args : List Value) (pos? : Option Position) (s : Session) :
    EStateM.Result Failure Session Frame → Prop where
  /-- There is no room for the call. The body is not run. -/
  | tooDeep (h : maxFrames ≤ s.frames.length) :
      Called run index f sources args pos? s
        (.error (.error ⟨.callDepth f.name, pos?⟩) (s.fitted index f args.length))
  /-- The body fails. Nothing is done but to take away its frame. -/
  | failed {e : Failure} {ended : Session} {left : Frame} (h : s.frames.length < maxFrames)
      (hrun : run (f.frame args) f.body
        ((s.fitted index f args.length).enter (f.frame args) h) = .error e ended)
      (hframes : ended.frames = left :: s.frames) :
      Called run index f sources args pos? s (.error e ended.leave)
  /-- The body succeeds. The parameters passed by reference are copied back, and then the
  result is recorded. -/
  | done {ended : Session} {left : Frame} (h : s.frames.length < maxFrames)
      (hrun : run (f.frame args) f.body
        ((s.fitted index f args.length).enter (f.frame args) h) = .ok () ended)
      (hframes : ended.frames = left :: s.frames) :
      Called run index f sources args pos? s
        (.ok left ((ended.leave.assign
          (copies (Function.paramsFor f.params args.length) sources left.params)).setCell
            (.last index f.name) left.result))

namespace Exec

variable {s ended : Session} {frame left : Frame} {rest : List Frame} {body : Exec Unit}
  {pos? : Option Position}

theorem popFrame_eq_ok (h : ended.frames = left :: rest) :
    popFrame ended = .ok left ended.leave := by
  rw [popFrame, bind_of_ok (show (get : Exec Session) ended = .ok ended ended from rfl), h]
  rfl

theorem withFrame_done {h : s.frames.length < maxFrames}
    (hbody : body (s.enter frame h) = .ok () ended) (hframes : ended.frames = left :: rest) :
    withFrame frame pos? body s = .ok left ended.leave := by
  rw [withFrame, bind_of_ok (pushFrame_eq_ok h), bind_of_ok (tryCatch_of_ok hbody),
    popFrame_eq_ok hframes]

theorem withFrame_failed {h : s.frames.length < maxFrames} {e : Failure}
    (hbody : body (s.enter frame h) = .error e ended) (hframes : ended.frames = left :: rest) :
    withFrame frame pos? body s = .error e ended.leave := by
  have hpop : discard popFrame ended = .ok () ended.leave := by
    simp only [discard, Functor.discard, Functor.mapConst, EStateM.map, Function.comp,
      popFrame_eq_ok hframes]
  rw [withFrame, bind_of_ok (pushFrame_eq_ok h), bind_of_error]
  rw [tryCatch_of_error hbody, bind_of_ok hpop]
  rfl

end Exec

/-- Calls follow the rule, if bodies keep what they are given. -/
theorem called_callFunction {run : Frame → Body → Exec Unit}
    (hrun : ∀ frame body s₀, Exec.Upholds (Session.Kept s₀) (fun _ => True) (fun _ => True)
      (run frame body))
    {index : Nat} {f : Function} {sources : List Source} {args : List Value}
    (pos? : Option Position) {s : Session} (hf : s.env.functions[index]? = some f)
    (hargs : sources.map (Source.valueIn s) = args.map .ok) (hheld : Source.Within s.Has sources) :
    Called run index f sources args pos? s (callFunction run index sources pos? s) := by
  have hlength : args.length = sources.length := by
    have := congrArg List.length hargs
    rwa [List.length_map, List.length_map, eq_comm] at this
  have hfitted : s.Kept (s.fitted index f args.length) := Session.kept_fitted hf args.length
  have hvalues : sources.map (Source.valueIn (s.fitted index f args.length)) = args.map .ok := by
    rw [← hargs]
    refine List.map_congr_left ?_
    intro source _
    cases source with
    | value v => rfl
    | cell slot =>
        refine Session.cell_modifyFunction index ?_ slot
        intro g
        rfl
  -- What is left of the call once the arguments are read.
  have hstart : callFunction run index sources pos? s =
      (Exec.withFrame (f.frame args) pos? (run (f.frame args) f.body) >>= fun left =>
        copyBack (Function.paramsFor f.params args.length) sources left.params >>= fun _ =>
          modify (·.modifyFunction index ({ · with last := left.result })) >>= fun _ =>
            pure left) (s.fitted index f args.length) := by
    rw [callFunction, bind_of_ok (show (get : Exec Session) s = .ok s s from rfl), hf]
    dsimp only
    rw [bind_of_ok (t := s.fitted index f args.length) (by rw [hlength]; rfl),
      bind_of_ok (Source.mapM_read_eq_ok hvalues), ← hlength]
    rfl
  rw [hstart]
  by_cases hroom : s.frames.length < maxFrames
  · have hbody := hrun (f.frame args) f.body _ _
      (Session.Kept.refl ((s.fitted index f args.length).enter (f.frame args) hroom))
    cases hended : run (f.frame args) f.body
        ((s.fitted index f args.length).enter (f.frame args) hroom) with
    | error e ended =>
        obtain ⟨left, hframes, _⟩ := (hbody.of_error hended).1.frames_eq_cons rfl
        rw [bind_of_error (Exec.withFrame_failed hended hframes)]
        exact .failed hroom hended hframes
    | ok _ ended =>
        have hkept := (hbody.of_ok hended).1
        obtain ⟨left, hframes, _⟩ := hkept.frames_eq_cons rfl
        have hsources := hheld.kept (hfitted.trans hkept.leave)
        rw [bind_of_ok (Exec.withFrame_done hended hframes),
          bind_of_ok (copyBack_eq_ok _ sources left.params _ hsources)]
        exact .done hroom hended hframes
  · rw [bind_of_error (Exec.withFrame_tooDeep (s := s.fitted index f args.length) hroom)]
    exact .tooDeep (Nat.le_of_not_lt hroom)

theorem Called.frames_of_error {run : Frame → Body → Exec Unit} {index : Nat} {f : Function}
    {sources : List Source} {args : List Value} {pos? : Option Position} {s t : Session}
    {e : Failure} (h : Called run index f sources args pos? s (.error e t)) :
    t.frames = s.frames := by
  cases h with
  | tooDeep h => rfl
  | failed h hended hframes => exact congrArg List.tail hframes

/-- The cells after a call that follows the rule. -/
theorem Called.cells_of_ok {run : Frame → Body → Exec Unit}
    (hrun : ∀ frame body s₀, Exec.Upholds (Session.Kept s₀) (fun _ => True) (fun _ => True)
      (run frame body))
    {index : Nat} {f : Function} {sources : List Source} {args : List Value}
    {pos? : Option Position} {s t : Session} {left : Frame}
    (h : Called run index f sources args pos? s (.ok left t))
    (hf : s.env.functions[index]? = some f) (hheld : Source.Within s.Has sources) :
    t.cell (.last index f.name) = .ok left.result ∧
      ∀ slot, slot.same (.last index f.name) = false →
        match (copies (Function.paramsFor f.params args.length) sources
          left.params).reverse.find? (·.1.same slot) with
        | some a => t.cell slot = .ok a.2
        | none => slot.isLocal → t.cell slot = s.cell slot := by
  cases h with
  | done hroom hended hframes =>
      rename_i ended
      have hstart := Session.Kept.refl ((s.fitted index f args.length).enter (f.frame args) hroom)
      have hbody : s.Kept ended.leave :=
        (Session.kept_fitted hf args.length).trans
          ((hrun _ _ _ _ hstart).of_ok hended).1.leave
      have hcopies : ∀ a ∈ copies (Function.paramsFor f.params args.length) sources left.params,
          ended.leave.Has a.1 :=
        (hheld.kept hbody).copies
      have hlast : (ended.leave.assign (copies (Function.paramsFor f.params args.length) sources
          left.params)).Has (.last index f.name) := by
        refine (hbody.trans (Session.kept_assign _ _)).has ?_
        exact (List.getElem?_eq_some_iff.1 hf).1
      refine ⟨?_, ?_⟩
      · rw [Session.cell_setCell hlast, if_pos (by simp [Slot.same])]
      · intro slot hslot
        have hne : (Slot.last index f.name).same slot = false := by
          rw [Slot.same_comm]
          exact hslot
        rw [Session.cell_setCell hlast, if_neg (by simp [hne]), Session.cell_assign hcopies]
        cases (copies (Function.paramsFor f.params args.length) sources
            left.params).reverse.find? (·.1.same slot) with
        | some a => rfl
        | none =>
            intro hlocal
            exact Session.cell_of_frames (congrArg List.tail hframes) hlocal

theorem called_invoke (fuel : Nat) {index : Nat} {f : Function} {sources : List Source}
    {args : List Value} (pos? : Option Position) {s : Session}
    (hf : s.env.functions[index]? = some f)
    (hargs : sources.map (Source.valueIn s) = args.map .ok) (hheld : Source.Within s.Has sources) :
    Called (runBody (invoke fuel maxFrames) fuel) index f sources args pos? s
      (invoke fuel maxFrames index sources pos? s) := by
  have hcall : invoke fuel maxFrames index sources pos? s =
      callFunction (runBody (invoke fuel maxFrames) fuel) index sources pos? s := by
    rw [← invoke_maxFrames]
  rw [hcall]
  exact called_callFunction (kept_runBody fuel maxFrames) pos? hf hargs hheld

/-- What a call does to the session, once its arguments are evaluated. It is run in a frame
that holds the arguments and else zero, by the rule `Called`. Afterwards the calls in
progress are those before it. If it fails, it leaves their cells alone; if it succeeds, the
arguments passed by reference have their new values, of which the last one to a cell
stays, the function has its last result, and the other cells of the caller are unchanged.
There is never more than the allowed number of calls in progress, in any session. -/
theorem invoke_effect (fuel : Nat) {index : Nat} (arguments : List Argument)
    (pos? : Option Position) {s₀ s : Session} {sources : List Source} {f : Function}
    (hargs : evalArguments (invoke fuel maxFrames) arguments s₀ = .ok sources s)
    (hf : s.env.functions[index]? = some f) :
    ∃ args : List Value, sources.map (Source.valueIn s) = args.map .ok ∧
      (∀ i, (f.frame args).params[i]? =
        if i < (Function.paramsFor f.params args.length).length then some (args[i]?.getD .zero)
        else none) ∧
      (f.frame args).result = .zero ∧
      Called (runBody (invoke fuel maxFrames) fuel) index f sources args pos? s
        (invoke fuel maxFrames index sources pos? s) ∧
      After (invoke fuel maxFrames index sources pos?) s
        (fun left t =>
          t.frames.tail = s.frames.tail ∧ t.frames.length = s.frames.length ∧
            t.cell (.last index f.name) = .ok left.result ∧
            ∀ slot, slot.same (.last index f.name) = false →
              match (copies (Function.paramsFor f.params args.length) sources
                left.params).reverse.find? (·.1.same slot) with
              | some a => t.cell slot = .ok a.2
              | none => slot.isLocal → t.cell slot = s.cell slot)
        (fun _ t => t.frames = s.frames) ∧
      ∀ session : Session, session.frames.length ≤ 1024 := by
  have hevaluated := (Source.within_evalArguments (fun s' => fun index' sources' pos?' _ _ =>
    kept_invoke fuel maxFrames index' sources' pos?' s') arguments s₀).of_ok hargs
  obtain ⟨args, hvalues⟩ := hevaluated.2.exists_args
  have hcalled := called_invoke fuel pos? hf hvalues hevaluated.2
  refine ⟨args, hvalues, f.getElem?_frame args, rfl, hcalled, ?_, Session.frames_le⟩
  have hkept := kept_invoke fuel maxFrames index sources pos? s s (Session.Kept.refl s)
  unfold After at hkept ⊢
  generalize invoke fuel maxFrames index sources pos? s = outcome at hcalled hkept ⊢
  cases outcome with
  | error e t => exact hcalled.frames_of_error
  | ok left t =>
      refine ⟨hkept.1.outer, hkept.1.frames_length, ?_⟩
      exact hcalled.cells_of_ok (kept_runBody fuel maxFrames) hf hevaluated.2

/-- A function with the body `a = 1; b = 2;` and both parameters passed by reference. -/
def setBoth : Function where
  name := "both"
  params := [⟨"a", true⟩, ⟨"b", true⟩]
  body := .script
    [.expr (.mk [.slot (.param 0 "a"), .op .set ⟨1, 3, 2⟩, .literal (.int 1)] ⟨1, 1, 0⟩),
      .expr (.mk [.slot (.param 1 "b"), .op .set ⟨1, 10, 9⟩, .literal (.int 2)] ⟨1, 8, 7⟩)]
  last := .zero

/-- A session with this function and a global. -/
def setBothSession : Session :=
  { Session.empty with env := .ofLists [("x", .int 7)] [setBoth] }

theorem invoke_effect_setBoth :
    evalArguments (invoke 0 maxFrames) [.cell (.global 0 "x"), .cell (.global 0 "x")]
        setBothSession = .ok [.cell (.global 0 "x"), .cell (.global 0 "x")] setBothSession ∧
      Called (runBody (invoke 0 maxFrames) 0) 0 setBoth
        [.cell (.global 0 "x"), .cell (.global 0 "x")] [.int 7, .int 7] none setBothSession
        (invoke 0 maxFrames 0 [.cell (.global 0 "x"), .cell (.global 0 "x")] none
          setBothSession) := by
  have hargs : evalArguments (invoke 0 maxFrames)
      [.cell (.global 0 "x"), .cell (.global 0 "x")] setBothSession =
        .ok [.cell (.global 0 "x"), .cell (.global 0 "x")] setBothSession := rfl
  obtain ⟨args, hvalues, _, _, hcalled, _⟩ :=
    invoke_effect 0 [.cell (.global 0 "x"), .cell (.global 0 "x")] none hargs
      (show setBothSession.env.functions[0]? = some setBoth from rfl)
  have hsevens : [Value.int 7, .int 7].map (Except.ok (ε := Panic)) = args.map .ok := hvalues
  obtain rfl := (List.map_inj_right fun _ _ h => Except.ok.inj h).1 hsevens
  exact ⟨hargs, hcalled⟩

end Scriptlet
