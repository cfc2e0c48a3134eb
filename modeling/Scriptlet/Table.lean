/-!
# Tables of names

What is declared under a name has a cell, and the name has an entry with the index of that
cell. Cells and entries are kept apart. A declaration adds to both; to undo declarations the
cells are cut off by their number, and the entries are gone through for those whose index
lies behind the cut.

`Table.Numbered` says that the two fit together: the indices in the entries are those of the
cells, each of them once. There is one lemma for each change of a table that says that the
change keeps this.
-/

namespace Scriptlet

/-- The cells in the order of declaration, and the names with the indices of their cells, in
the order in which the entries were made. -/
structure Table (α : Type) where
  cells : List α
  entries : List (String × Nat)

namespace Table

variable {α : Type}

/-- Nothing is declared. -/
def empty : Table α := ⟨[], []⟩

/-- The table of the members of a list, each with its name and its cell. -/
def ofList {β : Type} (name : β → String) (cell : β → α) (bs : List β) : Table α where
  cells := bs.map cell
  entries := (bs.map name).zipIdx

/-- The names that have an entry. -/
def names (t : Table α) : List String :=
  t.entries.map Prod.fst

/-- The index in the entry of a name. -/
def index? (t : Table α) (name : String) : Option Nat :=
  t.entries.lookup name

/-- The table with one more cell, and an entry for its name, which has none so far. -/
def add (t : Table α) (name : String) (a : α) : Table α where
  cells := t.cells ++ [a]
  entries := t.entries ++ [(name, t.cells.length)]

/-- The table with the cell at an index changed. -/
def modify (t : Table α) (i : Nat) (change : α → α) : Table α :=
  { t with cells := t.cells.modify i change }

/-- The table with every cell changed by what is at the same index of a list. Cells without
a counterpart there stay. -/
def updateFrom {β : Type} (t : Table α) (update : α → β → α) (bs : List β) : Table α :=
  { t with cells := t.cells.mapIdx fun i a => (bs[i]?.map (update a)).getD a }

/-- The table without what was declared after the first `n` cells. -/
def keep (t : Table α) (n : Nat) : Table α where
  cells := t.cells.take n
  entries := t.entries.filter fun entry => entry.2 < n

/-- Whether the indices in the entries are those of the cells, in their order. -/
def Numbered (t : Table α) : Prop :=
  t.entries.map Prod.snd = List.range t.cells.length

variable {t : Table α}

theorem numbered_empty : (empty : Table α).Numbered := rfl

theorem numbered_ofList {β : Type} (name : β → String) (cell : β → α) (bs : List β) :
    (ofList name cell bs).Numbered := by
  rw [Numbered, ofList, List.zipIdx_map_snd, List.length_map, List.length_map,
    List.range_eq_range']

theorem names_ofList {β : Type} (name : β → String) (cell : β → α) (bs : List β) :
    (ofList name cell bs).names = bs.map name :=
  List.zipIdx_map_fst 0 _

theorem Numbered.add (h : t.Numbered) (name : String) (a : α) : (t.add name a).Numbered := by
  unfold Numbered at h ⊢
  rw [Table.add, List.map_append, h, List.length_append, List.length_singleton, List.range_succ]
  rfl

theorem Numbered.modify (h : t.Numbered) (i : Nat) (change : α → α) :
    (t.modify i change).Numbered := by
  unfold Numbered at h ⊢
  rw [Table.modify, List.length_modify, h]

theorem Numbered.updateFrom {β : Type} (h : t.Numbered) (update : α → β → α) (bs : List β) :
    (t.updateFrom update bs).Numbered := by
  unfold Numbered at h ⊢
  rw [Table.updateFrom, List.length_mapIdx, h]

/-! ### Numbered tables -/

theorem Numbered.length_names (h : t.Numbered) : t.names.length = t.cells.length := by
  have hlength := congrArg List.length h
  rwa [List.length_map, List.length_range, ← List.length_map Prod.fst] at hlength

/-- The entries of a numbered table are its names, numbered from zero on. -/
theorem Numbered.entries_eq (h : t.Numbered) : t.entries = t.names.zipIdx := by
  rw [List.zipIdx_eq_zip_range', h.length_names, ← List.range_eq_range', ← h, names]
  exact List.zip_of_prod rfl rfl

/-- Of numbered names those with a number below a bound are the first ones. -/
theorem filter_zipIdx (names : List String) (n k : Nat) :
    (names.zipIdx k).filter (fun entry => decide (entry.2 < n)) =
      (names.take (n - k)).zipIdx k := by
  induction names generalizing k with
  | nil => rw [List.take_nil, List.zipIdx_nil, List.filter_nil]
  | cons name names ih =>
      rw [List.zipIdx_cons, List.filter_cons, ih]
      by_cases hk : k < n
      · obtain ⟨m, hm⟩ : ∃ m, n - k = m + 1 := ⟨n - k - 1, by omega⟩
        have hrest : n - (k + 1) = m := by omega
        rw [if_pos (decide_eq_true hk), hm, hrest, List.take_succ_cons, List.zipIdx_cons]
      · have hnone : n - k = 0 := by omega
        have hrest : n - (k + 1) = 0 := by omega
        rw [if_neg (by simpa using hk), hnone, hrest, List.take_zero, List.take_zero]
        rfl

theorem Numbered.entries_keep (h : t.Numbered) (n : Nat) :
    (t.keep n).entries = (t.names.take n).zipIdx := by
  rw [keep, h.entries_eq, filter_zipIdx, Nat.sub_zero]

/-- The entries that are left have the indices of the cells that are left. -/
theorem Numbered.keep (h : t.Numbered) (n : Nat) : (t.keep n).Numbered := by
  have hlength : (t.names.take n).length = (t.cells.take n).length := by
    rw [List.length_take, List.length_take, h.length_names]
  unfold Numbered
  rw [h.entries_keep, List.zipIdx_map_snd, hlength, ← List.range_eq_range', Table.keep]

/-- The names that keep their entries are the first ones. -/
theorem Numbered.names_keep (h : t.Numbered) (n : Nat) : (t.keep n).names = t.names.take n := by
  rw [names, h.entries_keep, List.zipIdx_map_fst]

theorem lookup_zipIdx (names : List String) (name : String) (k : Nat) :
    (names.zipIdx k).lookup name = (names.findIdx? (· == name)).map (· + k) := by
  induction names generalizing k with
  | nil => rfl
  | cons other names ih =>
      rw [List.zipIdx_cons, List.lookup_cons, List.findIdx?_cons, ih]
      by_cases heq : other = name
      · simp [heq]
      · have hne : (name == other) = false := beq_eq_false_iff_ne.2 (Ne.symm heq)
        have hne' : (other == name) = false := beq_eq_false_iff_ne.2 heq
        rw [hne, hne']
        simp [Function.comp_def, Nat.add_assoc, Nat.add_comm 1]

/-- In a numbered table, the index of a name is its place among the names. -/
theorem Numbered.index?_eq (h : t.Numbered) (name : String) :
    t.index? name = t.names.findIdx? (· == name) := by
  rw [index?, h.entries_eq, lookup_zipIdx]
  simp

theorem Numbered.index?_eq_none (h : t.Numbered) {name : String} :
    t.index? name = none ↔ name ∉ t.names := by
  rw [h.index?_eq, List.findIdx?_eq_none_iff]
  refine ⟨fun hall hname => by simpa using hall name hname, fun hnew other hother => ?_⟩
  exact beq_eq_false_iff_ne.2 fun heq => hnew (heq ▸ hother)

/-- A numbered table is told by its names and its cells. -/
theorem Numbered.ext {t' : Table α} (h : t.Numbered) (h' : t'.Numbered)
    (hnames : t.names = t'.names) (hcells : t.cells = t'.cells) : t = t' := by
  have hentries : t.entries = t'.entries := by rw [h.entries_eq, h'.entries_eq, hnames]
  cases t
  cases t'
  simp_all only

theorem names_add (t : Table α) (name : String) (a : α) :
    (t.add name a).names = t.names ++ [name] :=
  List.map_append

end Table

end Scriptlet
