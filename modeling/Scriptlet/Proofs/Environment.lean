import Scriptlet.Environment

/-!
# Declarations as lists

What an environment declares is two lists: `Environment.globals`, the names of the globals with
their values, and `Environment.functions`. The tables have nothing more in them: an environment
is told by the two lists (`ext_lists`), and any two lists are those of an environment
(`ofLists`). So every operation on an environment is one on lists, and an index is the first
place of a name in its list.
-/

namespace Scriptlet

namespace Environment

variable {env env' : Environment} {name : String} {i : Nat}

/-- The globals with their values, in the order of their declaration. -/
def globals (env : Environment) : List (String × Value) :=
  env.globalTable.names.zip env.globalTable.cells

theorem map_fst_globals (env : Environment) : env.globals.map Prod.fst = env.globalTable.names :=
  List.map_fst_zip (Nat.le_of_eq env.globals_numbered.length_names)

theorem map_name_functions (env : Environment) :
    env.functions.map Function.name = env.functionTable.names :=
  env.functions_named.symm

theorem map_snd_globals (env : Environment) : env.globals.map Prod.snd = env.globalTable.cells :=
  List.map_snd_zip (Nat.le_of_eq env.globals_numbered.length_names.symm)

theorem length_globals (env : Environment) :
    env.globals.length = env.globalTable.cells.length := by
  rw [← map_snd_globals, List.length_map]

theorem ext_lists (hglobals : env.globals = env'.globals)
    (hfunctions : env.functions = env'.functions) : env = env' := by
  have hglobalTable : env.globalTable = env'.globalTable := by
    refine env.globals_numbered.ext env'.globals_numbered ?_ ?_
    · rw [← map_fst_globals, ← map_fst_globals, hglobals]
    · rw [← map_snd_globals, ← map_snd_globals, hglobals]
  have hfunctionTable : env.functionTable = env'.functionTable := by
    refine env.functions_numbered.ext env'.functions_numbered ?_ hfunctions
    rw [env.functions_named, env'.functions_named]
    exact congrArg (List.map Function.name) hfunctions
  cases env
  cases env'
  cases hglobalTable
  cases hfunctionTable
  rfl

/-- The environment with the given globals and functions. -/
def ofLists (globals : List (String × Value)) (functions : List Function) : Environment where
  globalTable := .ofList Prod.fst Prod.snd globals
  functionTable := .ofList Function.name id functions
  globals_numbered := Table.numbered_ofList _ _ globals
  functions_numbered := Table.numbered_ofList _ _ functions
  functions_named := by
    rw [Table.names_ofList]
    exact congrArg (List.map Function.name) (List.map_id functions).symm

@[simp] theorem globals_ofLists (globals : List (String × Value)) (functions : List Function) :
    (ofLists globals functions).globals = globals := by
  change (Table.ofList Prod.fst Prod.snd globals).names.zip (globals.map Prod.snd) = globals
  rw [Table.names_ofList]
  exact (List.zip_of_prod rfl rfl).symm

@[simp] theorem functions_ofLists (globals : List (String × Value)) (functions : List Function) :
    (ofLists globals functions).functions = functions :=
  List.map_id functions

/-- An environment is made of its lists. -/
theorem eq_ofLists (env : Environment) : env = ofLists env.globals env.functions :=
  ext_lists (globals_ofLists _ _).symm (functions_ofLists _ _).symm

/-! ### Looking up -/

theorem globalIndex?_eq_findIdx? (env : Environment) (name : String) :
    env.globalIndex? name = env.globals.findIdx? (·.1 == name) := by
  rw [globalIndex?, env.globals_numbered.index?_eq, ← map_fst_globals, List.findIdx?_map]
  rfl

theorem functionIndex?_eq_findIdx? (env : Environment) (name : String) :
    env.functionIndex? name = env.functions.findIdx? (·.name == name) := by
  rw [functionIndex?, env.functions_numbered.index?_eq, env.functions_named, List.findIdx?_map]
  rfl

theorem global?_eq (env : Environment) (i : Nat) :
    env.global? i = env.globals[i]?.map Prod.snd := by
  rw [global?, ← map_snd_globals, List.getElem?_map]

/-! ### Changes -/

@[simp] theorem functions_setGlobal (env : Environment) (i : Nat) (v : Value) :
    (env.setGlobal i v).functions = env.functions := rfl

@[simp] theorem globals_setGlobal (env : Environment) (i : Nat) (v : Value) :
    (env.setGlobal i v).globals = env.globals.modify i fun g => (g.1, v) := by
  change env.globalTable.names.zip (env.globalTable.cells.modify i fun _ => v) = _
  refine List.ext_getElem? fun j => ?_
  simp only [Environment.globals, List.zip, List.getElem?_modify, List.getElem?_zipWith]
  cases env.globalTable.names[j]? <;> cases env.globalTable.cells[j]? <;>
    by_cases hij : i = j <;> simp [hij]

@[simp] theorem globals_modifyFunction (env : Environment) (i : Nat)
    (change : Function → Function) : (env.modifyFunction i change).globals = env.globals := rfl

@[simp] theorem functions_modifyFunction (env : Environment) (i : Nat)
    (change : Function → Function) :
    (env.modifyFunction i change).functions =
      env.functions.modify i fun f => { change f with name := f.name } := rfl

@[simp] theorem globals_addFunction (env : Environment) (f : Function) :
    (env.addFunction f).globals = env.globals := rfl

@[simp] theorem functions_addFunction (env : Environment) (f : Function) :
    (env.addFunction f).functions = env.functions ++ [f] := rfl

theorem declare_of_some (h : env.globalIndex? name = some i) : env.declare name = (i, env) := by
  rw [declare, h]

theorem declare_of_none (h : env.globalIndex? name = none) :
    env.declare name =
      (env.globals.length, ofLists (env.globals ++ [(name, .zero)]) env.functions) := by
  rw [declare, h, length_globals]
  refine congrArg (Prod.mk _) (ext_lists ?_ (functions_ofLists _ _).symm)
  rw [globals_ofLists, Environment.globals, Table.names_add]
  exact List.zip_append env.globals_numbered.length_names

theorem functions_declare (env : Environment) (name : String) :
    (env.declare name).2.functions = env.functions := by
  unfold declare
  cases env.globalIndex? name <;> rfl

theorem set_eq (env : Environment) (name : String) (v : Value) :
    env.set name v = (env.declare name).2.setGlobal (env.declare name).1 v := rfl

theorem functionTable_set (env : Environment) (name : String) (v : Value) :
    (env.set name v).functionTable = env.functionTable := by
  rw [set_eq, declare]
  cases env.globalIndex? name <;> rfl

theorem globals_restore (env : Environment) (m : Mark) :
    (env.restore m).globals = env.globals.take m.globals := by
  change (env.globalTable.keep m.globals).names.zip (env.globalTable.cells.take _) = _
  rw [env.globals_numbered.names_keep]
  exact (List.take_zipWith).symm

theorem functions_restore (env : Environment) (m : Mark) :
    (env.restore m).functions = List.zipWith Function.restore env.functions m.functions := by
  refine List.ext_getElem? fun j => ?_
  change (List.mapIdx _ (env.functions.take m.functions.length))[j]? = _
  rw [List.getElem?_mapIdx, List.getElem?_zipWith, List.getElem?_take]
  by_cases hj : j < m.functions.length
  · rw [if_pos hj, List.getElem?_eq_getElem hj]
    cases env.functions[j]? <;> rfl
  · rw [if_neg hj, List.getElem?_eq_none (Nat.le_of_not_lt hj)]
    cases env.functions[j]? <;> rfl

end Environment

end Scriptlet
