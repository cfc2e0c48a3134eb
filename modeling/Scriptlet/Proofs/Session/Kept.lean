import Scriptlet.Proofs.Environment
import Scriptlet.Proofs.Session.Upkeep

/-!
# What running a program keeps

`Session.Kept s t` says what the session `t` has in common with the session `s` from
which it was reached by running: the loaded program, the names of globals and functions,
the bodies, and all calls in progress but the innermost. The innermost call has changed
at most in what its cells hold, and parameters of functions were only added.

The main statement is `kept_invoke`: a call keeps all this, whatever it is that is
called and however the call ends. Its core is `upholds_callFunction`, which reduces a
call to the body, run with a frame of its own.
-/

namespace Scriptlet

/-- What running never changes in a frame. -/
def Frame.shape (f : Frame) : String × Nat × Nat :=
  (f.function, f.params.length, f.argCount)

namespace Frame

@[simp] theorem shape_setArg (f : Frame) (i : Nat) (v : Value) :
    (f.setArg i v).shape = f.shape := by
  simp [shape, setArg]

@[simp] theorem shape_setResult (f : Frame) (v : Value) : (f.setResult v).shape = f.shape := rfl

@[simp] theorem shape_adopt (f left : Frame) : (f.adopt left).shape = f.shape := by
  simp [shape, adopt]

end Frame

/-- What running never changes in a function, apart from adding parameters. Those that are
added are passed by value. -/
structure Function.Kept (f g : Function) : Prop where
  name : g.name = f.name
  body : g.body = f.body
  extended : ∃ added : List Param, g.params = f.params ++ added ∧ ∀ p ∈ added, p.byRef = false

namespace Function

theorem Kept.params {f g : Function} (h : f.Kept g) : f.params <+: g.params := by
  obtain ⟨added, heq, _⟩ := h.extended
  exact ⟨added, heq.symm⟩

/-- A function with the same parameters. -/
theorem Kept.of_params {f g : Function} (hname : g.name = f.name) (hbody : g.body = f.body)
    (hparams : g.params = f.params) : f.Kept g :=
  ⟨hname, hbody, [], by rw [hparams, List.append_nil], List.forall_mem_nil _⟩

theorem Kept.refl (f : Function) : f.Kept f :=
  .of_params rfl rfl rfl

theorem Kept.trans {f g h : Function} (hfg : f.Kept g) (hgh : g.Kept h) : f.Kept h := by
  obtain ⟨added, hg, hadded⟩ := hfg.extended
  obtain ⟨added', hh, hadded'⟩ := hgh.extended
  refine ⟨hgh.name.trans hfg.name, hgh.body.trans hfg.body, added ++ added', ?_, ?_⟩
  · rw [hh, hg, List.append_assoc]
  · rw [List.forall_mem_append]
    exact ⟨hadded, hadded'⟩

theorem prefix_paramsFor (params : List Param) (argCount : Nat) :
    params <+: paramsFor params argCount :=
  List.prefix_append _ _

/-- A function that has got parameters for all arguments of a call. -/
theorem kept_paramsFor (f : Function) (argCount : Nat) :
    f.Kept { f with params := paramsFor f.params argCount } := by
  refine ⟨rfl, rfl, _, rfl, ?_⟩
  intro p hp
  obtain ⟨i, _, rfl⟩ := List.mem_map.1 hp
  rfl

end Function

theorem Function.le_length_paramsFor (params : List Param) (argCount : Nat) :
    argCount ≤ (paramsFor params argCount).length := by
  simp only [paramsFor, List.length_append, List.length_map, List.length_range']
  omega

namespace Session

/-- Whether the session has the cell that a slot stands for. -/
def Has (s : Session) : Slot → Prop
  | .global i _ => i < s.env.globals.length
  | .last f _ => f < s.env.functions.length
  | .param i _ => ∃ frame rest, s.frames = frame :: rest ∧ i < frame.params.length
  | .result _ => ∃ frame rest, s.frames = frame :: rest

/-- The cells that a session has are those that can be read. -/
theorem has_iff {s : Session} {slot : Slot} : s.Has slot ↔ ∃ v, s.cell slot = .ok v := by
  cases slot with
  | global i name =>
      by_cases hi : i < s.env.globals.length <;> simp [Has, cell, Environment.global?_eq, hi]
  | last f name =>
      by_cases hf : f < s.env.functions.length <;> simp [Has, cell, hf]
  | param i name =>
      cases hframes : s.frames with
      | nil => simp [Has, cell, hframes]
      | cons frame rest =>
          by_cases hi : i < frame.params.length <;> simp [Has, cell, hframes, hi]
  | result name =>
      cases hframes : s.frames with
      | nil => simp [Has, cell, hframes]
      | cons frame rest => simp [Has, cell, hframes]

/-- Whether `t` can have been reached from `s` by running. -/
structure Kept (s t : Session) : Prop where
  program : t.program = s.program
  globals : t.env.globals.map (·.1) = s.env.globals.map (·.1)
  functions_length : t.env.functions.length = s.env.functions.length
  functions : ∀ {i : Nat} {f g : Function}, s.env.functions[i]? = some f →
    t.env.functions[i]? = some g → f.Kept g
  outer : t.frames.tail = s.frames.tail
  inner : t.frames.head?.map Frame.shape = s.frames.head?.map Frame.shape

namespace Kept

theorem refl (s : Session) : s.Kept s := by
  refine ⟨rfl, rfl, rfl, ?_, rfl, rfl⟩
  intro i f g hf hg
  rw [hf] at hg
  cases hg
  exact Function.Kept.refl f

/-- The function that has taken the place of another. -/
theorem function {s t : Session} {i : Nat} {f : Function} (h : s.Kept t)
    (hf : s.env.functions[i]? = some f) : ∃ g, t.env.functions[i]? = some g ∧ f.Kept g := by
  have hlt : i < t.env.functions.length := by
    rw [h.functions_length]
    exact (List.getElem?_eq_some_iff.1 hf).1
  have hg : t.env.functions[i]? = some t.env.functions[i] := List.getElem?_eq_getElem hlt
  exact ⟨_, hg, h.functions hf hg⟩

theorem trans {s t u : Session} (hst : s.Kept t) (htu : t.Kept u) : s.Kept u := by
  refine ⟨htu.program.trans hst.program, htu.globals.trans hst.globals,
    htu.functions_length.trans hst.functions_length, ?_, htu.outer.trans hst.outer,
    htu.inner.trans hst.inner⟩
  intro i f h hf hh
  obtain ⟨g, hg, hfg⟩ := hst.function hf
  exact hfg.trans (htu.functions hg hh)

theorem globals_length {s t : Session} (h : s.Kept t) :
    t.env.globals.length = s.env.globals.length := by
  have := congrArg List.length h.globals
  rwa [List.length_map, List.length_map] at this

/-- There are as many calls in progress as there were. -/
theorem frames_length {s t : Session} (h : s.Kept t) : t.frames.length = s.frames.length := by
  have houter := h.outer
  have hinner := h.inner
  cases hs : s.frames with
  | nil =>
      rw [hs] at hinner
      rw [List.head?_eq_none_iff.1 (Option.map_eq_none_iff.1 hinner)]
  | cons frame rest =>
      cases ht : t.frames with
      | nil => simp [hs, ht] at hinner
      | cons frame' rest' =>
          rw [hs, ht] at houter
          exact congrArg (·.length + 1) houter

/-- Outside of every call, running ends outside of every call. -/
theorem frames_eq_nil {s t : Session} (h : s.Kept t) (hs : s.frames = []) : t.frames = [] := by
  have := h.frames_length
  rw [hs] at this
  exact List.length_eq_zero_iff.1 this

/-- Within a call, running ends within the same call. -/
theorem frames_eq_cons {s t : Session} {frame : Frame} {rest : List Frame} (h : s.Kept t)
    (hs : s.frames = frame :: rest) :
    ∃ frame', t.frames = frame' :: rest ∧ frame'.shape = frame.shape := by
  have houter := h.outer
  have hinner := h.inner
  rw [hs] at houter hinner
  cases ht : t.frames with
  | nil => simp [ht] at hinner
  | cons frame' rest' =>
      rw [ht] at houter hinner
      obtain rfl : rest' = rest := houter
      exact ⟨frame', rfl, Option.some.inj hinner⟩

end Kept

/-! ### Single steps -/

theorem kept_modifyFunction {s : Session} {i : Nat} {change : Function → Function}
    (h : ∀ f, s.env.functions[i]? = some f → f.Kept (change f)) :
    s.Kept (s.modifyFunction i change) := by
  refine ⟨rfl, rfl, List.length_modify .., ?_, rfl, rfl⟩
  intro j f g hf hg
  simp only [modifyFunction, Environment.functions_modifyFunction, List.getElem?_modify, hf] at hg
  by_cases hij : i = j
  · subst hij
    simp only [if_true, Option.map_eq_map, Option.map_some, Option.some.injEq] at hg
    rw [← hg, ← (h f hf).name]
    exact h f hf
  · simp only [hij, if_false, Option.map_eq_map, Option.map_some, Option.some.injEq] at hg
    subst hg
    exact Function.Kept.refl f

theorem kept_modifyFrame (s : Session) {change : Frame → Frame}
    (h : ∀ f : Frame, (change f).shape = f.shape) : s.Kept (s.modifyFrame change) := by
  have hkept := Kept.refl s
  refine ⟨rfl, rfl, rfl, hkept.functions, ?_, ?_⟩
  · cases hs : s.frames <;> simp [modifyFrame, hs]
  · cases hs : s.frames <;> simp [modifyFrame, hs, h]

theorem kept_setCell (s : Session) (slot : Slot) (v : Value) : s.Kept (s.setCell slot v) := by
  cases slot with
  | global i name =>
      refine ⟨rfl, ?_, rfl, (Kept.refl s).functions, rfl, rfl⟩
      apply List.ext_getElem?
      intro j
      simp only [setCell, Environment.globals_setGlobal, List.getElem?_map,
        List.getElem?_modify]
      cases s.env.globals[j]? with
      | none => rfl
      | some g => by_cases hij : i = j <;> simp [hij]
  | param i name => exact s.kept_modifyFrame fun f => f.shape_setArg i v
  | result name => exact s.kept_modifyFrame fun f => f.shape_setResult v
  | last f name => exact kept_modifyFunction fun g _ => Function.Kept.of_params rfl rfl rfl

/-- What a call keeps for its own frame, its end keeps for the frame of the caller. -/
theorem Kept.leave {s t : Session} {frame : Frame} {h : s.frames.length < maxFrames}
    (hkept : (s.enter frame h).Kept t) : s.Kept t.leave := by
  have hframes : t.leave.frames = s.frames := hkept.outer
  refine ⟨hkept.program, hkept.globals, hkept.functions_length, hkept.functions, ?_, ?_⟩
  · rw [hframes]
  · rw [hframes]

/-- A cell that could be read can still be read. -/
theorem Kept.has {s t : Session} {slot : Slot} (h : s.Kept t) (hs : s.Has slot) : t.Has slot := by
  cases slot with
  | global i name => exact Nat.lt_of_lt_of_eq hs h.globals_length.symm
  | last f name => exact Nat.lt_of_lt_of_eq hs h.functions_length.symm
  | param i name =>
      obtain ⟨frame, rest, hframes, hi⟩ := hs
      obtain ⟨frame', hframes', hshape⟩ := h.frames_eq_cons hframes
      have hlength : frame'.params.length = frame.params.length :=
        congrArg (fun shape => shape.2.1) hshape
      exact ⟨frame', rest, hframes', Nat.lt_of_lt_of_eq hi hlength.symm⟩
  | result name =>
      obtain ⟨frame, rest, hframes⟩ := hs
      obtain ⟨frame', hframes', _⟩ := h.frames_eq_cons hframes
      exact ⟨frame', rest, hframes'⟩

end Session

/-! ### Calls -/

namespace Exec

variable {α β : Type} {inv : Session → Prop} {may : Failure → Prop}

theorem Upholds.mapM {f : α → Exec β} {xs : List α}
    (hf : ∀ a ∈ xs, Upholds inv may (fun _ => True) (f a)) :
    Upholds inv may (fun bs => bs.length = xs.length) (xs.mapM f) := by
  induction xs with
  | nil => exact Upholds.pure rfl
  | cons x xs ih =>
      rw [List.mapM_cons]
      refine (hf x List.mem_cons_self).bind fun b _ => ?_
      refine (ih fun a ha => hf a (List.mem_cons_of_mem x ha)).bind fun bs hbs => ?_
      exact Upholds.pure (congrArg (· + 1) hbs)

/-- A call with a frame of its own keeps what the caller has, if its body keeps what it
is given. -/
theorem upholds_withFrame {s₀ : Session} {frame : Frame} (pos? : Option Position)
    {body : Exec Unit} (hdepth : may (.error ⟨.callDepth frame.function, pos?⟩))
    (hbody : ∀ t hroom, s₀.Kept t →
      Upholds (Session.enter t frame hroom).Kept may (fun _ => True) body) :
    Upholds s₀.Kept may (fun _ => True) (withFrame frame pos? body) := by
  intro t ht
  rw [withFrame, after_bind, pushFrame, after_bind, after_get]
  by_cases hroom : t.frames.length < maxFrames
  · rw [dif_pos hroom, after_set, after_bind, after_tryCatch]
    have hstart : (t.enter frame hroom).frames = frame :: t.frames := rfl
    refine (hbody t hroom ht _ (Session.Kept.refl _)).mono ?_ ?_
    · rintro _ u ⟨hu, -⟩
      obtain ⟨left, hframes, _⟩ := hu.frames_eq_cons hstart
      rw [popFrame, after_bind, after_get, hframes]
      exact ⟨ht.trans hu.leave, trivial⟩
    · rintro e u ⟨hu, he⟩
      obtain ⟨left, hframes, _⟩ := hu.frames_eq_cons hstart
      rw [after_bind, after_discard, popFrame, after_bind, after_get, hframes]
      exact ⟨ht.trans hu.leave, he⟩
  · rw [dif_neg hroom]
    exact ⟨ht, hdepth⟩

end Exec

/-- Whether a frame has a cell for each parameter of the function and for each argument of
the call. -/
structure Frame.Serves (frame : Frame) (f : Function) : Prop where
  function : frame.function = f.name
  params : f.params.length ≤ frame.params.length
  args : frame.argCount ≤ frame.params.length

theorem Frame.serves_start {f g : Function} {args : List Value} {argCount : Nat}
    (hfg : f.Kept g) (hargs : args.length = argCount) :
    (Frame.start g.name (Function.paramsFor g.params argCount).length args).Serves f := by
  have hparams := (hfg.params.trans (Function.prefix_paramsFor g.params argCount)).length_le
  refine ⟨hfg.name, ?_, ?_⟩
  · simp only [start, List.length_append, List.length_replicate]
    omega
  · simp only [start, List.length_append, List.length_replicate]
    omega

section Calls

variable {may : Failure → Prop} {ok : Reference → Prop} {s₀ : Session}

theorem Upheld.upholds_sourceRead (h : Upheld s₀.Kept may ok) {sources : List Source}
    (hsources : Source.Within (ok <| .cell ·) sources) :
    ∀ source ∈ sources, Exec.Upholds s₀.Kept may (fun _ => True) source.read := by
  intro source hmem
  cases source with
  | cell slot => exact h.upholds_read (hsources slot hmem)
  | value v => exact Exec.Upholds.pure trivial

theorem Upheld.upholds_copyBack (h : Upheld s₀.Kept may ok) (params : List Param)
    {sources : List Source} (vs : List Value) (hsources : Source.Within (ok <| .cell ·) sources) :
    Exec.Upholds s₀.Kept may (fun _ => True) (copyBack params sources vs) := by
  fun_induction copyBack params sources vs with
  | case1 p params sources v vs copyRest slot href ih =>
      refine (h.upholds_write (hsources slot List.mem_cons_self) v).bind fun _ _ => ?_
      exact ih hsources.of_cons
  | case2 p params sources v vs copyRest slot href ih =>
      exact ih hsources.of_cons
  | case3 p params sources v vs copyRest w ih =>
      exact ih hsources.of_cons
  | case4 => exact Exec.Upholds.pure trivial

/-- A call keeps what the caller has, if the body keeps what it is given. -/
theorem upholds_callFunction {run : Frame → Body → Exec Unit} {index : Nat}
    {sources : List Source} (h : Upheld s₀.Kept may ok) (pos? : Option Position)
    (hsources : Source.Within (ok <| .cell ·) sources)
    (hfunction : s₀.env.functions[index]? = none → may (.panic (.noFunction index)))
    (hrun : ∀ f frame t hroom, s₀.env.functions[index]? = some f → frame.Serves f → s₀.Kept t →
      Exec.Upholds (Session.enter t frame hroom).Kept may (fun _ => True) (run frame f.body)) :
    Exec.Upholds s₀.Kept may (fun _ => True) (callFunction run index sources pos?) := by
  intro s hs
  rw [callFunction, after_bind, after_get]
  cases hf : s₀.env.functions[index]? with
  | none =>
      have hnone : s.env.functions[index]? = none := by
        rw [List.getElem?_eq_none_iff] at hf ⊢
        rwa [hs.functions_length]
      rw [hnone]
      exact ⟨hs, hfunction hf⟩
  | some f =>
      obtain ⟨g, hg, hfg⟩ := hs.function hf
      rw [hg]
      dsimp only
      rw [after_bind, after_modify]
      have hextended : s₀.Kept (s.modifyFunction index fun f' =>
          { f' with params := Function.paramsFor g.params sources.length }) := by
        refine hs.trans (Session.kept_modifyFunction ?_)
        intro g' hg'
        rw [hg] at hg'
        cases hg'
        exact g.kept_paramsFor sources.length
      refine (Exec.Upholds.mapM (h.upholds_sourceRead hsources)).bind ?_ _ hextended
      intro args hargs
      refine (Exec.upholds_withFrame pos? (h.error _ (by simp [Cause.kind])) ?_).bind ?_
      · intro t hroom ht
        rw [hfg.body]
        exact hrun f _ t hroom hf (Frame.serves_start hfg hargs) ht
      · intro left _
        refine (h.upholds_copyBack _ left.params hsources).bind ?_
        intro _ _ t ht
        rw [after_bind, after_modify]
        exact ⟨ht.trans (Session.kept_setCell t (.last index g.name) left.result), trivial⟩

/-- A body keeps what its call has, if what it mentions is fit for it. -/
theorem upholds_runBody {call : Caller} {fuel : Nat} {frame : Frame} {body : Body}
    (h : Upheld s₀.Kept may ok) (hcall : call.Upholds s₀.Kept may ok)
    (hscript : ∀ stmts, body = .script stmts →
      (∀ r ∈ blockReferences stmts, ok r) ∧ (blockHasWhile stmts → may .outOfFuel))
    (hnative : ∀ run e, body = .native run → run frame = .error e → may e) :
    Exec.Upholds s₀.Kept may (fun _ => True) (runBody call fuel frame body) := by
  cases body with
  | script stmts =>
      obtain ⟨hrefs, hfuel⟩ := hscript stmts rfl
      exact (upholds_execBlock h hcall fuel hrefs hfuel).discard
  | native run =>
      unfold runBody
      dsimp only
      cases hrun : run frame with
      | error e => exact Exec.Upholds.throw (hnative run e rfl hrun)
      | ok left =>
          intro s hs
          have hadopt := hs.trans (s.kept_modifyFrame fun f => f.shape_adopt left)
          exact ⟨⟨hadopt.program, hadopt.globals, hadopt.functions_length, hadopt.functions,
            hadopt.outer, hadopt.inner⟩, trivial⟩

/-- Accesses to cells keep everything, and any failure is permitted. -/
theorem upheld_kept (s₀ : Session) : Upheld s₀.Kept (fun _ => True) fun _ => True where
  cell _ _ _ := trivial
  setCell v hs _ _ := hs.trans (Session.kept_setCell _ _ v)
  error _ _ := trivial

/-- A call keeps what there was before it, whatever is called and however it ends. -/
theorem kept_invoke (fuel room index : Nat) (sources : List Source) (pos? : Option Position)
    (s₀ : Session) :
    Exec.Upholds s₀.Kept (fun _ => True) (fun _ => True)
      (invoke fuel room index sources pos?) := by
  induction room generalizing s₀ index sources pos? with
  | zero =>
      refine upholds_callFunction (upheld_kept s₀) pos? (fun _ _ => trivial) (fun _ => trivial) ?_
      intro f frame t hroom _ _ _
      exact Exec.Upholds.throw trivial
  | succ below ih =>
      refine upholds_callFunction (upheld_kept s₀) pos? (fun _ _ => trivial) (fun _ => trivial) ?_
      intro f frame t hroom _ _ _
      refine upholds_runBody (upheld_kept _) ?_ (fun _ _ => ⟨fun _ _ => trivial, fun _ => trivial⟩)
        fun _ _ _ _ => trivial
      intro index' sources' pos?' _ _
      exact ih index' sources' pos?' _

/-- So does the body of a function. -/
theorem kept_runBody (fuel room : Nat) (frame : Frame) (body : Body) (s₀ : Session) :
    Exec.Upholds s₀.Kept (fun _ => True) (fun _ => True)
      (runBody (invoke fuel room) fuel frame body) := by
  refine upholds_runBody (upheld_kept s₀) ?_ (fun _ _ => ⟨fun _ _ => trivial, fun _ => trivial⟩)
        fun _ _ _ _ => trivial
  intro index sources pos? _ _
  exact kept_invoke fuel room index sources pos? s₀

end Calls

end Scriptlet
