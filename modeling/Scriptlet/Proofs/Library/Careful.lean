import Scriptlet.Library

/-!
# The standard library asks only for arguments that it was given

A function of the host panics when it asks for a cell that the frame does not have. One
that asks only for arguments it was given never does, because a frame has a cell for
each argument. All functions of the standard library require as many arguments as they
ask for. So an error of the language is all that they fail by, except that `range` panics
when its bound is above `Library.maxItems` (`range_of_int`), and this is the only panic there
is (`guarded_library`). They always come to an end (`terminates_library`), and the errors are
of running and never of parsing (`parseFree_library`).
-/

namespace Scriptlet

/-- The functions of the standard library. -/
def Library.functions : List Session.Provided :=
  conversion ++ array ++ math

/-- Whether a function of the host never panics on a frame that has a cell for each
argument. -/
def Native.Careful (run : Native) : Prop :=
  ∀ f : Frame, f.argCount ≤ f.params.length → ∀ p, run f ≠ .error (.panic p)

/-- Whether a function of the host panics, on a frame that has a cell for each argument, by
asking for too many items at once only. -/
def Native.Guarded (run : Native) : Prop :=
  ∀ f : Frame, f.argCount ≤ f.params.length → ∀ p, run f = .error (.panic p) →
    ∃ n, p = .tooLong n ∧ Library.maxItems < n

theorem Native.Careful.guarded {run : Native} (h : run.Careful) : run.Guarded :=
  fun f hargs p hp => absurd hp (h f hargs p)

/-- Whether a function of the host comes to an end on a frame that has a cell for each
argument. -/
def Native.Terminates (run : Native) : Prop :=
  ∀ f : Frame, f.argCount ≤ f.params.length → run f ≠ .error .outOfFuel

/-- Whether a function of the host never fails with an error of parsing, on a frame that has a
cell for each argument. -/
def Native.ParseFree (run : Native) : Prop :=
  ∀ f : Frame, f.argCount ≤ f.params.length → ∀ e, run f = .error e → e.kind? ≠ some .parse

namespace Library

variable {α β : Type} {f : Frame} {run : Native}

/-- Whether a computation fails only by an error of the language, of the kind that belongs to
running, or by asking for too many items at once. -/
def Calm (x : Except Failure α) : Prop :=
  ∀ e, x = .error e → (∃ error, e = .error error ∧ error.cause.kind = .runtime) ∨
    ∃ n, e = .panic (.tooLong n) ∧ maxItems < n

theorem calm_ok (a : α) : Calm (.ok a) := by
  intro e h
  cases h

theorem calm_error {e : Error} (he : e.cause.kind = .runtime) :
    Calm (.error (.error e) : Except Failure α) := by
  intro failure h
  cases h
  exact .inl ⟨e, rfl, he⟩

theorem calm_tooLong {n : Nat} (hn : maxItems < n) :
    Calm (.error (.panic (.tooLong n)) : Except Failure α) := by
  intro failure h
  cases h
  exact .inr ⟨n, rfl, hn⟩

theorem calm_fail (f : Frame) (detail : String) : Calm (f.fail detail : Except Failure α) :=
  calm_error rfl

theorem calm_unsupported (f : Frame) (v : Value) : Calm (unsupported f v : Except Failure α) :=
  calm_fail f _

theorem Calm.bind {x : Except Failure α} {next : α → Except Failure β} (hx : Calm x)
    (hnext : ∀ a, Calm (next a)) : Calm (x >>= next) := by
  cases x with
  | ok a => exact hnext a
  | error e =>
      intro failure h
      cases h
      exact hx e rfl

/-- Whether a function of the host is calm on a frame that has a cell for each argument. -/
def Reports (run : Native) : Prop :=
  ∀ f : Frame, f.argCount ≤ f.params.length → Calm (run f)

theorem Reports.guarded (h : Reports run) : Native.Guarded run := by
  intro f hargs p hp
  obtain ⟨error, heq, _⟩ | ⟨n, heq, hn⟩ := h f hargs _ hp
  · cases heq
  · cases heq
    exact ⟨n, rfl, hn⟩

theorem Reports.terminates (h : Reports run) : Native.Terminates run := by
  intro f hargs hfuel
  obtain ⟨error, heq, _⟩ | ⟨n, heq, _⟩ := h f hargs _ hfuel <;> cases heq

theorem Reports.parseFree (h : Reports run) : Native.ParseFree run := by
  intro f hargs e he
  obtain ⟨error, rfl, hkind⟩ | ⟨n, rfl, _⟩ := h f hargs e he
  · simp [Failure.kind?, hkind]
  · simp [Failure.kind?]

/-- A function that requires arguments may ask for them. -/
theorem reports_of_require {n : Nat} {next : Native}
    (h : ∀ f : Frame, n ≤ f.params.length → Calm (next f)) :
    Reports fun f => f.require n >>= fun _ => next f := by
  intro f hargs
  change Calm (f.require n >>= fun _ => next f)
  unfold Frame.require
  by_cases hn : f.argCount < n
  · rw [if_pos hn]
    exact calm_error rfl
  · rw [if_neg hn]
    exact h f (Nat.le_trans (Nat.le_of_not_lt hn) hargs)

theorem calm_arg {i n : Nat} (hi : i < n) (h : n ≤ f.params.length) : Calm (f.arg i) := by
  unfold Frame.arg
  rw [List.getElem?_eq_getElem (Nat.lt_of_lt_of_le hi h)]
  exact calm_ok _

theorem calm_index {i n : Nat} (hi : i < n) (h : n ≤ f.params.length) : Calm (index f i) := by
  refine (calm_arg hi h).bind fun v => ?_
  split
  · exact calm_ok _
  · exact calm_fail f _

theorem calm_number {i n : Nat} (hi : i < n) (h : n ≤ f.params.length) : Calm (number f i) := by
  refine (calm_arg hi h).bind fun v => ?_
  split
  · exact calm_ok _
  · exact calm_unsupported f v

/-! ### Conversion -/

theorem reports_print : Reports print :=
  fun _ _ => calm_ok _

theorem reports_str : Reports str :=
  reports_of_require fun _ h => (calm_arg Nat.zero_lt_one h).bind fun _ => calm_ok _

theorem reports_int : Reports int := by
  refine reports_of_require fun f h => (calm_arg Nat.zero_lt_one h).bind fun v => ?_
  split
  · exact calm_ok _
  · exact calm_ok _
  · exact calm_ok _
  · dsimp only
    split
    · exact calm_ok _
    · exact calm_ok _
    · exact calm_fail f _
  · exact calm_unsupported f _

theorem reports_float : Reports float := by
  refine reports_of_require fun f h => (calm_arg Nat.zero_lt_one h).bind fun v => ?_
  split
  · exact calm_ok _
  · exact calm_ok _
  · exact calm_ok _
  · split
    · exact calm_ok _
    · exact calm_fail f _
  · exact calm_unsupported f _

theorem reports_type : Reports type :=
  reports_of_require fun _ h => (calm_arg Nat.zero_lt_one h).bind fun _ => calm_ok _

theorem reports_len : Reports len :=
  reports_of_require fun _ h => (calm_arg Nat.zero_lt_one h).bind fun _ => calm_ok _

/-! ### Arrays -/

theorem reports_get : Reports get := by
  refine reports_of_require fun f h => (calm_index Nat.one_lt_two h).bind fun i => ?_
  refine (calm_arg Nat.zero_lt_two h).bind fun v => ?_
  split
  · exact calm_ok _
  · exact calm_fail f _

theorem kind_setAt {a v : Value} {i : Int} {cause : Cause} (h : a.setAt i v = .error cause) :
    cause.kind = .runtime := by
  unfold Value.setAt at h
  split at h
  · cases h
    rfl
  · cases h

theorem reports_set : Reports set := by
  refine reports_of_require fun f h => (calm_index (by decide) h).bind fun i => ?_
  refine (calm_arg (by decide) h).bind fun a => (calm_arg (by decide) h).bind fun v => ?_
  split
  · exact calm_ok _
  · rename_i hcause
    exact calm_error (kind_setAt hcause)

theorem reports_push : Reports push := by
  refine reports_of_require fun f h => (calm_arg Nat.zero_lt_two h).bind fun a => ?_
  exact (calm_arg Nat.one_lt_two h).bind fun v => calm_ok _

theorem reports_range : Reports range := by
  refine reports_of_require fun f h => (calm_index Nat.zero_lt_one h).bind fun n => ?_
  dsimp only
  split
  · rename_i hn
    exact calm_tooLong hn
  · exact calm_ok _

/-- What `range` makes of an integer: a list of that length, if there can be one, and a panic
if not. -/
theorem range_of_int {n : Int64} (hcount : 0 < f.argCount) (harg : f.arg 0 = .ok (.int n)) :
    range f =
      if maxItems < n.toInt.toNat then .error (.panic (.tooLong n.toInt.toNat))
      else .ok (f.setResult
        (.array ((List.range n.toInt.toNat).map fun i => .int (Int64.ofNat i)))) := by
  have hrequire : f.require 1 = .ok () := if_neg (Nat.not_lt.2 hcount)
  have hindex : index f 0 = .ok n := by
    rw [index, harg]
    rfl
  unfold range
  rw [hrequire, hindex]
  rfl

/-! ### Mathematics -/

theorem reports_rounding (round : Float → Float) : Reports (rounding round) := by
  refine reports_of_require fun f h => (calm_arg Nat.zero_lt_one h).bind fun v => ?_
  split
  · exact calm_ok _
  · exact calm_ok _
  · exact calm_unsupported f _

theorem reports_sqrt : Reports sqrt := by
  refine reports_of_require fun f h => (calm_number Nat.zero_lt_one h).bind fun x => ?_
  split
  · exact calm_fail f _
  · exact calm_ok _

theorem reports_abs : Reports abs := by
  refine reports_of_require fun f h => (calm_arg Nat.zero_lt_one h).bind fun v => ?_
  split
  · exact calm_ok _
  · exact calm_ok _
  · exact calm_unsupported f _

theorem reports_pow : Reports pow := by
  refine reports_of_require fun f h => (calm_arg Nat.zero_lt_two h).bind fun a => ?_
  refine (calm_arg Nat.one_lt_two h).bind fun b => ?_
  split
  · split
    · exact calm_ok _
    · exact calm_ok _
  · refine (calm_number Nat.zero_lt_two h).bind fun x => ?_
    exact (calm_number Nat.one_lt_two h).bind fun y => calm_ok _

theorem reports_sin : Reports sin :=
  reports_of_require fun _ h => (calm_number Nat.zero_lt_one h).bind fun _ => calm_ok _

/-- All functions of the standard library fail only by errors of the language, or by asking
for too many items at once. -/
theorem reports_library : ∀ f ∈ functions, Reports f.native := by
  have hconversion : ∀ f ∈ conversion, Reports f.native := by
    simp only [conversion, List.forall_mem_cons]
    exact ⟨reports_print, reports_str, reports_int, reports_float, reports_type, reports_len,
      List.forall_mem_nil _⟩
  have harray : ∀ f ∈ array, Reports f.native := by
    simp only [array, List.forall_mem_cons]
    exact ⟨reports_get, reports_set, reports_push, reports_range, List.forall_mem_nil _⟩
  have hmath : ∀ f ∈ math, Reports f.native := by
    simp only [math, List.forall_mem_cons]
    exact ⟨reports_rounding _, reports_rounding _, reports_sqrt, reports_abs, reports_pow,
      reports_sin, List.forall_mem_nil _⟩
  rw [functions, List.forall_mem_append, List.forall_mem_append]
  exact ⟨⟨hconversion, harray⟩, hmath⟩

theorem guarded_library : ∀ f ∈ functions, Native.Guarded f.native :=
  fun f hf => (reports_library f hf).guarded

theorem terminates_library : ∀ f ∈ functions, Native.Terminates f.native :=
  fun f hf => (reports_library f hf).terminates

theorem parseFree_library : ∀ f ∈ functions, Native.ParseFree f.native :=
  fun f hf => (reports_library f hf).parseFree

end Library

end Scriptlet
