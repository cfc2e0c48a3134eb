import Mathlib.Data.List.Nodup
import Mathlib.Logic.ExistsUnique
import Scriptlet.Proofs.Session.Declared

/-!
# Names and their cells

Globals and functions are each in a table, which has the cells in one list and in another an
entry for each name, with the index of its cell. `Table.Bijective` says that the entries are a
bijection between names and indices. The two lists are changed apart from each other. Declaring
adds to both. After a source was refused, `Environment.restore` cuts off the cells by their
number and deletes entries by the index in them; that the same ones are left is
`Table.Numbered.keep`.

The main statement is `names_of_reachable`: whatever a host has asked for, the tables of globals
and of functions are bijections, each function is in the cell of its own name, the listing of
the globals is complete and strictly increasing, no name is ever lost, and setting a global
changes what its name stands for and nothing else.
-/

namespace Scriptlet

namespace Table

variable {α : Type} {t : Table α}

/-- Whether the entries of a table are a bijection between its names and the indices of its
cells, and looking a name up finds its entry. -/
structure Bijective (t : Table α) : Prop where
  /-- No entry has an index beyond the cells. -/
  lt : ∀ name i, (name, i) ∈ t.entries → i < t.cells.length
  /-- No name has two entries. -/
  unique : ∀ name i j, (name, i) ∈ t.entries → (name, j) ∈ t.entries → i = j
  /-- Every cell is that of one name. -/
  existsUnique : ∀ i, i < t.cells.length → ∃! name, (name, i) ∈ t.entries
  index?_iff : ∀ name i, t.index? name = some i ↔ (name, i) ∈ t.entries

theorem Numbered.mem_entries_iff (h : t.Numbered) {name : String} {i : Nat} :
    (name, i) ∈ t.entries ↔ t.names[i]? = some name := by
  rw [h.entries_eq, List.mem_zipIdx_iff_getElem?]

/-- In a numbered table without two entries for a name, looking up is the way back from an
index to its name. -/
theorem Numbered.index?_eq_some_iff (h : t.Numbered) (hnodup : t.names.Nodup) {name : String}
    {i : Nat} : t.index? name = some i ↔ t.names[i]? = some name := by
  rw [h.index?_eq, List.findIdx?_eq_some_iff_getElem, List.getElem?_eq_some_iff]
  constructor
  · rintro ⟨hi, hname, _⟩
    exact ⟨hi, eq_of_beq hname⟩
  · rintro ⟨hi, rfl⟩
    refine ⟨hi, beq_self_eq_true _, fun j hj heq => ?_⟩
    have hji := hnodup.getElem_inj_iff.1 (eq_of_beq heq)
    omega

theorem Numbered.bijective (h : t.Numbered) (hnodup : t.names.Nodup) : t.Bijective where
  lt name i hmem := by
    rw [← h.length_names]
    exact (List.getElem?_eq_some_iff.1 (h.mem_entries_iff.1 hmem)).1
  unique name i j hi hj := by
    have hindex := (h.index?_eq_some_iff hnodup).2 (h.mem_entries_iff.1 hi)
    exact Option.some.inj
      (hindex.symm.trans ((h.index?_eq_some_iff hnodup).2 (h.mem_entries_iff.1 hj)))
  existsUnique i hi := by
    rw [← h.length_names] at hi
    have hname := List.getElem?_eq_getElem hi
    refine ⟨t.names[i], h.mem_entries_iff.2 hname, fun name hmem => ?_⟩
    exact Option.some.inj ((h.mem_entries_iff.1 hmem).symm.trans hname)
  index?_iff name i := (h.index?_eq_some_iff hnodup).trans h.mem_entries_iff.symm

end Table

namespace Environment

variable {env : Environment} {name other : String} {i : Nat}

/-! ### The listing -/

theorem mem_names : name ∈ env.names ↔ (env.globalIndex? name).isSome := by
  rw [names, List.mem_mergeSort, ← Option.ne_none_iff_isSome, ne_eq, globalIndex?_eq_none,
    not_not]
  rfl

theorem pairwise_names (h : env.Distinct) : env.names.Pairwise (· < ·) := by
  have hnodup : env.names.Nodup := (List.mergeSort_perm _ _).nodup_iff.2 h
  refine (pairwise_mergeSort_le _).imp₂ (fun a b hle hne => ?_) hnodup
  exact Decidable.byContradiction fun hlt => hne (String.le_antisymm hle (String.not_lt.1 hlt))

/-! ### Setting a global -/

theorem globalIndex?_declare (env : Environment) (name : String) :
    (env.declare name).2.globalIndex? name = some (env.declare name).1 := by
  cases h : env.globalIndex? name with
  | some i => rw [declare_of_some h, h]
  | none =>
      rw [declare_of_none h]
      rw [globalIndex?_eq_findIdx?] at h
      simp [globalIndex?_eq_findIdx?, List.findIdx?_append, h]

theorem globalIndex?_declare_of_ne (h : other ≠ name) (env : Environment) :
    (env.declare name).2.globalIndex? other = env.globalIndex? other := by
  cases hname : env.globalIndex? name with
  | some i => rw [declare_of_some hname]
  | none =>
      rw [declare_of_none hname]
      simp [globalIndex?_eq_findIdx?, List.findIdx?_append, h.symm]

theorem global?_setGlobal (h : i < env.globals.length) (v : Value) (j : Nat) :
    (env.setGlobal i v).global? j = if i = j then some v else env.global? j := by
  rw [length_globals] at h
  simp only [global?, setGlobal, Table.modify, List.getElem?_modify]
  by_cases hij : i = j
  · subst hij
    simp [h]
  · cases env.globalTable.cells[j]? <;> simp [hij]

theorem get?_set_self (env : Environment) (name : String) (v : Value) :
    (env.set name v).get? name = some v := by
  have hindex : (env.set name v).globalIndex? name = _ := env.globalIndex?_declare name
  rw [get?, hindex]
  dsimp only
  rw [set_eq, global?_setGlobal (lt_of_globalIndex? (env.globalIndex?_declare name)), if_pos rfl]

/-- The other globals keep their cells, and what is no global is looked up among the functions
as before. -/
theorem get?_set_of_ne (h : other ≠ name) (env : Environment) (v : Value) :
    (env.set name v).get? other = env.get? other := by
  have hindex := env.globalIndex?_declare name
  have hother : (env.set name v).globalIndex? other = env.globalIndex? other :=
    globalIndex?_declare_of_ne h env
  rw [get?, get?, hother]
  cases hj : env.globalIndex? other with
  | none =>
      simp only [function?, functionIndex?, functions, functionTable_set]
  | some j =>
      -- The names at the two indices differ, and so do the indices.
      have hne : (env.declare name).1 ≠ j := by
        intro heq
        have hj' := (globalIndex?_declare_of_ne h env).trans hj
        rw [heq, globalIndex?_eq] at hindex
        rw [globalIndex?_eq] at hj'
        obtain ⟨_, hname, _⟩ := List.findIdx?_eq_some_iff_getElem.1 hindex
        obtain ⟨_, hname', _⟩ := List.findIdx?_eq_some_iff_getElem.1 hj'
        exact h ((eq_of_beq hname').symm.trans (eq_of_beq hname))
      have hcell : (env.declare name).2.globals[j]? = env.globals[j]? := by
        obtain ⟨more, hmore⟩ := (env.grows_declare name).globals
        rw [← hmore, List.getElem?_append_left (lt_of_globalIndex? hj)]
      dsimp only
      rw [set_eq, global?_setGlobal (lt_of_globalIndex? hindex), if_neg hne, global?_eq, hcell,
        global?_eq]

end Environment

/-- What the tables and the listing are in every session that a host can come to. -/
structure Session.Named (s : Session) : Prop where
  globals : s.env.globalTable.Bijective
  functions : s.env.functionTable.Bijective
  stored : ∀ name i, (name, i) ∈ s.env.functionTable.entries →
    ∃ f, s.env.functionTable.cells[i]? = some f ∧ f.name = name
  listed : ∀ name, name ∈ s.names ↔ ∃ i, (name, i) ∈ s.env.globalTable.entries
  increasing : s.names.Pairwise (· < ·)

/-- Names that are there stay, however a request ends. -/
theorem Session.after_names (fuel : Nat) (r : Request) (s : Session) :
    After (r.perform fuel) s (fun _ t => ∀ name ∈ s.names, name ∈ t.names)
      fun _ t => ∀ name ∈ s.names, name ∈ t.names := by
  have hlasting : Lasting fun t => s.env.globalNames ⊆ t.env.globalNames :=
    lasting_names (P := fun globals _ => s.env.globalNames ⊆ globals)
      ⟨fun _ h => List.Subset.trans h (List.subset_append_left _ _), fun _ h => h⟩
  have hmem (t : Session) (name : String) : name ∈ t.names ↔ name ∈ t.env.globalNames :=
    List.mem_mergeSort
  refine (hlasting.perform fuel r s (List.Subset.refl _)).mono ?_ ?_
  · rintro vs t ⟨ht, -⟩ name hname
    exact (hmem t name).2 (ht ((hmem s name).1 hname))
  · rintro e t ⟨ht, -⟩ name hname
    exact (hmem t name).2 (ht ((hmem s name).1 hname))

variable {natives : Native → Prop} {accepted : List String} {s : Session}

/-- In every session that a host can come to, the entries of the tables are bijections between
names and cells, each function is in the cell of its own name, and the listing of globals is
complete and strictly increasing. No request loses a name, however it ends, and setting a global
is seen under its name only. -/
theorem names_of_reachable (h : Reachable natives accepted s) :
    s.Named ∧
      (∀ fuel (r : Request),
        After (r.perform fuel) s (fun _ t => ∀ name ∈ s.names, name ∈ t.names)
          fun _ t => ∀ name ∈ s.names, name ∈ t.names) ∧
      ∀ name v, (s.set name v).get? name = some v ∧
        ∀ other, other ≠ name → (s.set name v).get? other = s.get? other := by
  have hglobals : s.env.Distinct := lasting_distinct.reachable List.nodup_nil h
  have hfunctions : s.env.DistinctFunctions :=
    lasting_distinctFunctions.reachable List.nodup_nil h
  have hbijective := s.env.functions_numbered.bijective hfunctions
  have hnamed : s.Named :=
    { globals := s.env.globals_numbered.bijective hglobals
      functions := hbijective
      stored := fun name i hmem =>
        Environment.exists_of_functionIndex? ((hbijective.index?_iff name i).2 hmem)
      listed := fun name => List.mem_mergeSort.trans (by simp [Table.names])
      increasing := Environment.pairwise_names hglobals }
  exact ⟨hnamed, fun fuel r => s.after_names fuel r, fun name v =>
    ⟨s.env.get?_set_self name v, fun _ hother => Environment.get?_set_of_ne hother s.env v⟩⟩

/-- A function and two globals. One of them is declared by being read. -/
def twoGlobals : String :=
  "DEF f a; z = f(b);"

theorem names_of_reachable_loaded :
    ∃ accepted, Reachable (fun _ => True) accepted (Session.empty.loaded twoGlobals) ∧
      (Session.empty.loaded twoGlobals).env.globalTable.entries = [("z", 0), ("b", 1)] ∧
      (Session.empty.loaded twoGlobals).Named ∧
      ((Session.empty.loaded twoGlobals).set "f" (.int 1)).get? "f" = some (.int 1) := by
  have haccepts : Session.empty.accepts twoGlobals = true := by decide +kernel
  obtain ⟨accepted, hreachable⟩ :=
    Session.reachable_loaded (@Reachable.start fun _ => True) haccepts
  obtain ⟨hnamed, -, hset⟩ := names_of_reachable hreachable
  exact ⟨_, hreachable, by decide +kernel, hnamed, (hset "f" (.int 1)).1⟩

end Scriptlet
