import Scriptlet.Proofs.Session.ByReference

/-!
# Elements of arrays by calls

The functions `get`, `set` and `push` of the standard library read and change an array that a
global holds. Those that change it take it by reference: the function works on the cells of its
frame, and the call copies the array back when it has succeeded. So a failure leaves the global
as it was, and the element to store may be the array itself, of which the frame has a second
copy. The main statement is `elements_by_calls`.

`Value.Stored` says which elements an array has after one was stored, and `Exec.IsCall` in which
ways a call can be run.
-/

namespace Scriptlet

namespace Value

/-- The index that a value is, if it is one: an integer that is not negative. -/
def index? : Value → Option Nat
  | .int n => if n.toInt < 0 then none else some n.toInt.toNat
  | _ => none

/-- Whether the elements `new` are the elements `old` with `item` stored at the index `i`. What
was missing up to the index has become the integer zero. -/
structure Stored (old : List Value) (i : Nat) (item : Value) (new : List Value) : Prop where
  length : new.length = max old.length (i + 1)
  stored : new[i]? = some item
  kept : ∀ k < old.length, k ≠ i → new[k]? = old[k]?
  filled : ∀ k < i, old.length ≤ k → new[k]? = some (.int 0)

theorem length_grown (n : Nat) (items : List Value) :
    (grown n items).length = max items.length n := by
  rw [grown, List.length_append, List.length_replicate]
  omega

theorem stored_grown (old : List Value) (i : Nat) (item : Value) :
    Stored old i item ((grown (i + 1) old).set i item) := by
  have hlength := length_grown (i + 1) old
  refine ⟨?_, ?_, ?_, ?_⟩
  · rw [List.length_set, hlength]
  · rw [List.getElem?_set_self (by omega)]
  · intro k hk hne
    rw [List.getElem?_set_ne hne.symm, grown, List.getElem?_append_left hk]
  · intro k hk hle
    rw [List.getElem?_set_ne (by omega), grown, List.getElem?_append_right hle,
      List.getElem?_replicate, if_pos (by omega)]
    rfl

theorem get?_toInt (v : Value) (n : Int64) :
    v.get? n.toInt = (int n).index?.bind (v.elements[·]?) := by
  by_cases h : n.toInt < 0 <;> simp [get?, index?, h]

theorem setAt_toInt (v : Value) (n : Int64) (item : Value) :
    v.setAt n.toInt item = match (int n).index? with
      | some i => .ok (.array ((grown (i + 1) v.elements).set i item))
      | none => .error (.negativeIndex n.toInt) := by
  by_cases h : n.toInt < 0 <;> simp [setAt, index?, h]

end Value

/-! ### The functions of the host -/

namespace Library

variable {v x item : Value} {i : Nat}

theorem get_int (f : Function) (v : Value) (n : Int64) :
    get (f.frame [v, .int n]) = match v.get? n.toInt with
      | some item => .ok ((f.frame [v, .int n]).setResult item)
      | none => (f.frame [v, .int n]).fail s!"index {n.toInt} out of range" :=
  rfl

theorem set_int (f : Function) (v : Value) (n : Int64) (item : Value) :
    set (f.frame [v, .int n, item]) = match v.setAt n.toInt item with
      | .ok w => .ok (((f.frame [v, .int n, item]).setArg 0 w).setResult w)
      | .error cause => .error (.error cause.nowhere) :=
  rfl

theorem get_of_some (h : x.index?.bind (v.elements[·]?) = some item) (f : Function) :
    get (f.frame [v, x]) = .ok ((f.frame [v, x]).setResult item) := by
  cases x with
  | int n => rw [get_int, v.get?_toInt, h]
  | _ => cases h

theorem get_of_none (h : x.index?.bind (v.elements[·]?) = none) (f : Function) :
    get.Fails (f.frame [v, x]) := by
  cases x with
  | int n =>
      rw [Native.Fails, get_int, v.get?_toInt, h]
      exact ⟨_, rfl, rfl⟩
  | _ => exact ⟨_, rfl, rfl⟩

theorem set_of_some (h : x.index? = some i) (f : Function) :
    set (f.frame [v, x, item]) =
      .ok (((f.frame [v, x, item]).setArg 0
        (.array ((Value.grown (i + 1) v.elements).set i item))).setResult
          (.array ((Value.grown (i + 1) v.elements).set i item))) := by
  cases x with
  | int n => rw [set_int, v.setAt_toInt, h]
  | _ => cases h

theorem set_of_none (h : x.index? = none) (f : Function) :
    set.Fails (f.frame [v, x, item]) := by
  cases x with
  | int n =>
      rw [Native.Fails, set_int, v.setAt_toInt, h]
      exact ⟨_, rfl, rfl⟩
  | _ => exact ⟨_, rfl, rfl⟩

end Library

/-! ### The array functions -/

/-- Whether `get` reads the elements of an array from a cell: at their indices it gives them,
and at all others it fails. -/
def Session.ReadsElements (fuel : Nat) (s : Session) (slot : Slot) (items : List Value) : Prop :=
  ∀ index x run, Argument.Gives fuel s index x →
    Exec.IsCall fuel s "get" [.cell slot, index] run →
      match x.index?.bind (items[·]?) with
      | some item => ∃ t, run s = .ok item t ∧ t.env.globals = s.env.globals
      | none => run.FailsCleanly s

section Elements

variable {fuel : Nat} {s : Session} {slot : Slot} {old v : Value} {value : Argument}

theorem Session.cell_of_globals {t : Session} {i : Nat} {a : String}
    (hold : s.cell (.global i a) = .ok old)
    (h : t.env.globals = (s.setCell (.global i a) v).env.globals) :
    t.cell (.global i a) = .ok v := by
  have hcell : t.cell (.global i a) = (s.setCell (.global i a) v).cell (.global i a) := by
    simp only [cell, Environment.global?_eq, h]
  rw [hcell, cell_setCell (has_iff.2 ⟨old, hold⟩), if_pos (Slot.same_self _)]

theorem Session.readsElements (hget : s.env.Declares ⟨"get", ["array", "index"], Library.get⟩)
    (hroom : s.frames.length < maxFrames) (hold : s.cell slot = .ok old) :
    s.ReadsElements fuel slot old.elements := by
  intro index x run hindex hcall
  have hargs : List.Forall₂ (Argument.Gives fuel s) [index] [x] := .cons hindex .nil
  cases hitem : x.index?.bind (old.elements[·]?) with
  | none => exact hcall.of_fails hget hroom hold hargs (Library.get_of_none hitem)
  | some item =>
      have hvalue : ∀ q ∈ [Param.mk "index" false], q.byRef = false := by decide
      -- Nothing is stored, so the array stays in its cell.
      obtain ⟨t, ht, -, hglobals⟩ := hcall.of_ok (w := old) hget hroom hold hargs
        (p := ⟨"array", false⟩) rfl hvalue (Library.get_of_some hitem)
      exact ⟨t, ht, hglobals⟩

/-- The functions `get`, `set` and `push` on an array that a global holds, where a value that is
no array counts as empty. Storing at an index makes the global an array in which the element is
at this index, all other elements are those before, and the gap, if there was one, is filled
with zeros; and then these are the elements that can be read. Adding makes the element the last
one and gives their number. The element is what the argument held before the call. An index that
is negative or no integer is an error of running, by which no global is changed. -/
theorem elements_by_calls {i : Nat} {a : String}
    (hlibrary : ∀ f ∈ Library.array, f.name ∈ ["get", "set", "push"] → s.env.Declares f)
    (hroom : s.frames.length < maxFrames) (hold : s.cell (.global i a) = .ok old)
    (hvalue : value.Gives fuel s v) :
    s.ReadsElements fuel (.global i a) old.elements ∧
    (∀ index x run, Argument.Gives fuel s index x →
      Exec.IsCall fuel s "set" [.cell (.global i a), index, value] run →
        match x.index? with
        | some k => ∃ items t, run s = .ok (.array items) t ∧
            Value.Stored old.elements k v items ∧
            t.env.globals = (s.env.setGlobal i (.array items)).globals ∧
            t.ReadsElements fuel (.global i a) items
        | none => run.FailsCleanly s) ∧
    ∀ run, Exec.IsCall fuel s "push" [.cell (.global i a), value] run →
      ∃ t, run s = .ok (.int (Int64.ofNat (old.size + 1))) t ∧
        t.env.globals = (s.env.setGlobal i (.array (old.elements ++ [v]))).globals := by
  have hget := hlibrary ⟨"get", ["array", "index"], Library.get⟩ (by simp [Library.array]) (by simp)
  have hset := hlibrary ⟨"set", ["&array", "index", "value"], Library.set⟩ (by simp [Library.array])
    (by simp)
  have hpush := hlibrary ⟨"push", ["&array", "value"], Library.push⟩ (by simp [Library.array])
    (by simp)
  refine ⟨Session.readsElements hget hroom hold, ?_, ?_⟩
  · intro index x run hindex hcall
    have hargs : List.Forall₂ (Argument.Gives fuel s) [index, value] [x, v] :=
      .cons hindex (.cons hvalue .nil)
    cases hk : x.index? with
    | none => exact hcall.of_fails hset hroom hold hargs (Library.set_of_none hk)
    | some k =>
        have hparams : ∀ q ∈ [Param.mk "index" false, ⟨"value", false⟩], q.byRef = false := by
          decide
        obtain ⟨t, ht, hkept, hglobals⟩ := hcall.of_ok hset hroom hold hargs
          (p := ⟨"array", true⟩) rfl hparams (Library.set_of_some hk)
        have hcell := Session.cell_of_globals hold hglobals
        have hroom' : t.frames.length < maxFrames := hkept.frames_length ▸ hroom
        exact ⟨_, t, ht, Value.stored_grown old.elements k v, hglobals,
          Session.readsElements (hget.kept hkept) hroom' hcell⟩
  · intro run hcall
    have hparams : ∀ q ∈ [Param.mk "value" false], q.byRef = false := by decide
    obtain ⟨t, ht, -, hglobals⟩ := hcall.of_ok hpush hroom hold (.cons hvalue .nil)
      (p := ⟨"array", true⟩) rfl hparams fun g => rfl
    refine ⟨t, ?_, hglobals⟩
    rw [ht, Value.size, Value.push, Value.elements, List.length_append]
    rfl

/-- A session with the standard library, an array and an index behind its end. -/
def arraySession : Session :=
  (Session.empty.withLibrary.set "a" (.array [.int 7])).set "i" (.int 2)

theorem declares_arraySession {f : Session.Provided} (hf : f ∈ Library.array) :
    arraySession.env.Declares f := by
  have hparams : ∀ f ∈ Library.array, (arraySession.env.function? f.name).map (·.2.params) =
      some (f.params.map Param.ofString) := by decide +kernel
  have hlibrary : f ∈ Library.functions := List.mem_append_left _ (List.mem_append_right _ hf)
  have hprovides : arraySession.env.Provides f.name f.native :=
    ((Session.empty.provides_withLibrary hlibrary).set "a" (.array [.int 7])).set "i" (.int 2)
  exact hprovides.declares (hparams f hf)

theorem elements_by_calls_self :
    (∀ f ∈ Library.array, f.name ∈ ["get", "set", "push"] → arraySession.env.Declares f) ∧
      arraySession.frames.length < maxFrames ∧
      arraySession.cell (.global 2 "a") = .ok (.array [.int 7]) ∧
      (Argument.cell (.global 2 "a")).Gives 0 arraySession (.array [.int 7]) ∧
      ∃ t, Exec.eval 0 "set(a, i, a)" arraySession =
          .ok (.array [.int 7, .int 0, .array [.int 7]]) t ∧
        t.env.globals = (arraySession.env.setGlobal 2
          (.array [.int 7, .int 0, .array [.int 7]])).globals := by
  have hlibrary : ∀ f ∈ Library.array, f.name ∈ ["get", "set", "push"] →
      arraySession.env.Declares f := fun f hf _ => declares_arraySession hf
  have hroom : arraySession.frames.length < maxFrames := by decide
  have ha : arraySession.cell (.global 2 "a") = .ok (.array [.int 7]) := rfl
  have hi : arraySession.cell (.global 3 "i") = .ok (.int 2) := rfl
  have hself : (Argument.cell (.global 2 "a")).Gives 0 arraySession (.array [.int 7]) :=
    Argument.gives_cell ha
  have hset : arraySession.env.functionIndex? "set" = some 7 := by decide +kernel
  have hnames : ∀ g ∈ [("a", 2), ("i", 3), ("a", 2)],
      arraySession.env.globalIndex? g.1 = some g.2 := by decide +kernel
  have hsource : (tokenize (callText "set" ["a", "i", "a"])).Says
      (callLexemes "set" ["a", "i", "a"]) :=
    says_callText (by decide +kernel) (by decide +kernel)
  have hcall := Exec.isCall_globals 0 hset hnames hsource
  obtain ⟨-, hstore, -⟩ := elements_by_calls hlibrary hroom ha hself
  obtain ⟨items, t, ht, hstored, hglobals, -⟩ := hstore _ _ _ (Argument.gives_cell hi) hcall
  have hitems : items = [.int 7, .int 0, .array [.int 7]] := by
    obtain ⟨x, y, z, rfl⟩ := List.length_eq_three.1 hstored.length
    have hx : some x = some (.int 7) := hstored.kept 0 (by decide) (by decide)
    have hy : some y = some (.int 0) := hstored.filled 1 (by decide) (by decide)
    have hz : some z = some (.array [.int 7]) := hstored.stored
    cases hx
    cases hy
    cases hz
    rfl
  subst hitems
  exact ⟨hlibrary, hroom, ha, hself, t, ht, hglobals⟩

end Elements

end Scriptlet
