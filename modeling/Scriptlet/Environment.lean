import Scriptlet.Function
import Scriptlet.Table

/-!
# Declared names

The globals and functions that a session knows, each in a table of its own. Slots and
calls refer to them by the index of their cell, so declaring more never disturbs a program
that was parsed before.

The fields of `Environment` include proofs that its tables are numbered and that functions
are in their table under their own names. Each change of an environment comes with the
reasons why it keeps this.
-/

namespace Scriptlet

/-- The table of the globals with their values, and that of the functions. -/
structure Environment where
  globalTable : Table Value
  functionTable : Table Function
  /-- The indices of the globals are those of their cells. -/
  globals_numbered : globalTable.Numbered
  /-- The indices of the functions are those of their cells. -/
  functions_numbered : functionTable.Numbered
  /-- Functions have their entries under their own names. -/
  functions_named : functionTable.names = functionTable.cells.map Function.name

namespace Environment

/-- Nothing is declared. -/
def empty : Environment where
  globalTable := .empty
  functionTable := .empty
  globals_numbered := Table.numbered_empty
  functions_numbered := Table.numbered_empty
  functions_named := rfl

/-- The functions in the order of their declaration. -/
def functions (env : Environment) : List Function :=
  env.functionTable.cells

/-- The index of a global. -/
def globalIndex? (env : Environment) (name : String) : Option Nat :=
  env.globalTable.index? name

/-- The index of a function. -/
def functionIndex? (env : Environment) (name : String) : Option Nat :=
  env.functionTable.index? name

/-- The function of a name, with its index. -/
def function? (env : Environment) (name : String) : Option (Nat × Function) :=
  (env.functionIndex? name).bind fun i => env.functions[i]?.map (i, ·)

/-- The environment in which a name is a global, and the index of that global. A
new global holds zero. -/
def declare (env : Environment) (name : String) : Nat × Environment :=
  match env.globalIndex? name with
  | some i => (i, env)
  | none =>
      (env.globalTable.cells.length,
        { env with
          globalTable := env.globalTable.add name .zero
          globals_numbered := env.globals_numbered.add name .zero })

/-- The value of the global at an index. -/
def global? (env : Environment) (i : Nat) : Option Value :=
  env.globalTable.cells[i]?

/-- The environment with the global at an index changed. -/
def setGlobal (env : Environment) (i : Nat) (v : Value) : Environment :=
  { env with
    globalTable := env.globalTable.modify i fun _ => v
    globals_numbered := env.globals_numbered.modify i _ }

/-- The environment with the function at an index changed in all but its name. -/
def modifyFunction (env : Environment) (i : Nat) (change : Function → Function) : Environment :=
  { env with
    functionTable := env.functionTable.modify i fun f => { change f with name := f.name }
    functions_numbered := env.functions_numbered.modify i _
    functions_named := by
      refine env.functions_named.trans (List.ext_getElem? fun j => ?_)
      simp only [Table.modify, List.getElem?_map, List.getElem?_modify]
      cases env.functionTable.cells[j]? with
      | none => rfl
      | some f => by_cases hij : i = j <;> simp [hij] }

/-- The environment with one more function, of a name that no function has so far. -/
def addFunction (env : Environment) (f : Function) : Environment :=
  { env with
    functionTable := env.functionTable.add f.name f
    functions_numbered := env.functions_numbered.add f.name f
    functions_named := by
      rw [Table.names_add, env.functions_named, Table.add, List.map_append]
      rfl }

/-- The effect of a declaration in a program. A function of the program is
declared once; a native function takes the new parameters. -/
def define (env : Environment) (name : String) (params : List Param) :
    Except Cause Environment :=
  match env.function? name with
  | none => .ok (env.addFunction (.declared name params))
  | some (i, f) =>
      if f.isNative then .ok (env.modifyFunction i ({ · with params := params }))
      else .error (.alreadyDeclared name)

/-- The effect of a host providing the body of a function. A function that is
already declared keeps its parameters when none are given. -/
def provide (env : Environment) (name : String) (params : List Param) (run : Native) :
    Environment :=
  match env.functionIndex? name with
  | none => env.addFunction { Function.declared name params with body := .native run }
  | some i =>
      env.modifyFunction i fun f =>
        { f with params := if params.isEmpty then f.params else params, body := .native run }

/-- What is recorded of an environment so that later declarations can be undone: how many
globals there are, and the functions. -/
structure Mark where
  globals : Nat
  functions : List Function

/-- The present declarations. -/
def mark (env : Environment) : Mark :=
  ⟨env.globalTable.cells.length, env.functions⟩

/-- Undoes the declarations after `m`. Later globals and functions are dropped from the
cells and from the entries, and the functions that were there get back their parameters and
bodies. The cells of globals and last results are kept as they are. -/
def restore (env : Environment) (m : Mark) : Environment where
  globalTable := env.globalTable.keep m.globals
  functionTable := (env.functionTable.keep m.functions.length).updateFrom Function.restore
    m.functions
  globals_numbered := env.globals_numbered.keep m.globals
  functions_numbered := (env.functions_numbered.keep m.functions.length).updateFrom _ _
  functions_named := by
    refine (env.functions_numbered.names_keep _).trans ?_
    rw [env.functions_named, ← List.map_take, Table.updateFrom, Table.keep]
    refine List.ext_getElem? fun i => ?_
    simp only [List.getElem?_map, List.getElem?_mapIdx]
    cases (env.functionTable.cells.take m.functions.length)[i]? with
    | none => rfl
    | some f => cases m.functions[i]? <;> rfl

/-- The value of a name: that of the global, else the last result of the
function. -/
def get? (env : Environment) (name : String) : Option Value :=
  match env.globalIndex? name with
  | some i => env.global? i
  | none => (env.function? name).map (·.2.last)

/-- The environment with a global set, which is declared if need be. -/
def set (env : Environment) (name : String) (v : Value) : Environment :=
  let (i, declared) := env.declare name
  declared.setGlobal i v

/-- The names of the globals, in increasing order. -/
def names (env : Environment) : List String :=
  env.globalTable.names.mergeSort (· ≤ ·)

/-- What a name stands for inside the body of `function?`, or outside of every
body: a global, else a function, else a parameter, else a new global. -/
def resolve (env : Environment) (function? : Option Nat) (name : String) : Slot × Environment :=
  match env.globalIndex? name with
  | some i => (.global i name, env)
  | none =>
      match env.functionIndex? name with
      | some i => (if function? = some i then .result name else .last i name, env)
      | none =>
          let param? := function?.bind fun i => env.functions[i]?.bind (·.paramIndex? name)
          match param? with
          | some i => (.param i name, env)
          | none =>
              let (i, declared) := env.declare name
              (.global i name, declared)

/-- Resolving a name declares at most this name. -/
theorem resolve_eq_or_declare (env : Environment) (function? : Option Nat) (name : String) :
    (env.resolve function? name).2 = env ∨
      (env.resolve function? name).2 = (env.declare name).2 := by
  unfold resolve
  cases env.globalIndex? name with
  | some i => exact .inl rfl
  | none =>
      cases env.functionIndex? name with
      | some i => exact .inl rfl
      | none =>
          cases function?.bind fun i => env.functions[i]?.bind (·.paramIndex? name) with
          | some i => exact .inl rfl
          | none => exact .inr rfl

end Environment

end Scriptlet
