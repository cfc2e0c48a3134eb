import Mathlib.Data.List.Perm.Basic
import Scriptlet.Proofs.HostData
import Scriptlet.Proofs.Session.HostCall
import Scriptlet.Proofs.Yaml.Distinct
import Scriptlet.Yaml.Variables

/-!
# Variables in any order

A document of variables is a mapping, and a host may come to its entries in any order. Each entry
sets a global of its own, so the order is seen in the indices of the globals at most: the names of
the globals and their values are the same (`setVariables_eq`, `get?_setAll_of_mem`). The main
statement is `variables_in_any_order`, which adds that globals written as a document are restored
by it.
-/

namespace Scriptlet

/-- Sets a global for every variable, one after the other. -/
def Exec.setVariables (path : String) (order : List (String × HostData)) : Exec Unit :=
  order.forM fun (name, d) => Exec.setVariable path name d

/-- Whether a session has the globals of another one: the same names, with the same values. -/
structure Session.SameGlobals (t s : Session) : Prop where
  names : t.names = s.names
  values : ∀ name ∈ s.names, t.get? name = s.get? name

/-! ### The names of the globals -/

namespace Environment

theorem globalNames_set (env : Environment) (name : String) (v : Value) :
    (env.set name v).globalNames =
      if name ∈ env.globalNames then env.globalNames else env.globalNames ++ [name] := by
  change (env.declare name).2.globalNames = _
  rw [declare]
  split
  case h_1 i hindex =>
    have hmem : name ∈ env.globalNames := by
      by_contra hnew
      rw [globalIndex?_eq_none.2 hnew] at hindex
      cases hindex
    rw [if_pos hmem]
  case h_2 hindex =>
    rw [if_neg (globalIndex?_eq_none.1 hindex)]
    exact env.globalTable.names_add name .zero

theorem names_eq_of_perm {env env' : Environment} (h : env.globalNames.Perm env'.globalNames) :
    env.names = env'.names :=
  List.Perm.eq_of_pairwise (fun _ _ _ _ => String.le_antisymm) (pairwise_mergeSort_le _)
    (pairwise_mergeSort_le _)
    ((List.mergeSort_perm _ _).trans (h.trans (List.mergeSort_perm _ _).symm))

end Environment

/-! ### Several globals -/

namespace Session

variable {s : Session} {globals : List (String × Value)} {name : String} {v : Value}

theorem setAll_cons (s : Session) (g : String × Value) (globals : List (String × Value)) :
    s.setAll (g :: globals) = (s.set g.1 g.2).setAll globals := rfl

theorem get?_setAll_of_not_mem (h : name ∉ globals.map Prod.fst) :
    (s.setAll globals).get? name = s.get? name := by
  induction globals generalizing s with
  | nil => rfl
  | cons g globals ih =>
      obtain ⟨hne, hrest⟩ := List.ne_and_not_mem_of_not_mem_cons h
      rw [setAll_cons, ih hrest]
      exact Environment.get?_set_of_ne hne s.env g.2

/-- Among globals of different names none is set a second time. -/
theorem get?_setAll_of_mem (hnodup : (globals.map Prod.fst).Nodup) (h : (name, v) ∈ globals) :
    (s.setAll globals).get? name = some v := by
  induction globals generalizing s with
  | nil => cases h
  | cons g globals ih =>
      obtain ⟨hfirst, hnodup⟩ := List.nodup_cons.1 hnodup
      rw [setAll_cons]
      obtain rfl | h := List.mem_cons.1 h
      · rw [get?_setAll_of_not_mem hfirst]
        exact s.env.get?_set_self name v
      · exact ih hnodup h

/-- The names that are not there yet come last, in the order in which they are set. -/
theorem globalNames_setAll (hnodup : (globals.map Prod.fst).Nodup) :
    (s.setAll globals).env.globalNames =
      s.env.globalNames ++ (globals.map Prod.fst).filter (· ∉ s.env.globalNames) := by
  induction globals generalizing s with
  | nil => simp [setAll]
  | cons g globals ih =>
      obtain ⟨hfirst, hnodup⟩ := List.nodup_cons.1 hnodup
      have hset : (s.set g.1 g.2).env.globalNames = _ := s.env.globalNames_set g.1 g.2
      rw [setAll_cons, ih hnodup, hset]
      split
      case isTrue hmem => simp [hmem]
      case isFalse hnew =>
        have hrest : (globals.map Prod.fst).filter (· ∉ s.env.globalNames ++ [g.1]) =
            (globals.map Prod.fst).filter (· ∉ s.env.globalNames) := by
          refine List.filter_congr fun other hother => ?_
          have hne : other ≠ g.1 := fun heq => hfirst (heq ▸ hother)
          simp [hne]
        rw [hrest, List.map_cons, List.filter_cons_of_pos (by simpa using hnew),
          List.append_assoc, List.singleton_append]

theorem names_setAll_of_perm {others : List (String × Value)}
    (hnodup : (globals.map Prod.fst).Nodup) (h : others.Perm globals) :
    (s.setAll others).names = (s.setAll globals).names := by
  refine Environment.names_eq_of_perm ?_
  have hkeys := h.map Prod.fst
  rw [globalNames_setAll hnodup, globalNames_setAll (hkeys.nodup_iff.2 hnodup)]
  exact (hkeys.filter _).append_left _

theorem get?_setAll_of_perm {others : List (String × Value)}
    (hnodup : (globals.map Prod.fst).Nodup) (h : others.Perm globals) (name : String) :
    (s.setAll others).get? name = (s.setAll globals).get? name := by
  have hkeys := h.map Prod.fst
  by_cases hname : name ∈ globals.map Prod.fst
  · obtain ⟨⟨_, v⟩, hg, rfl⟩ := List.mem_map.1 hname
    rw [get?_setAll_of_mem hnodup hg,
      get?_setAll_of_mem (hkeys.nodup_iff.2 hnodup) (h.mem_iff.2 hg)]
  · rw [get?_setAll_of_not_mem hname,
      get?_setAll_of_not_mem fun hother => hname (hkeys.mem_iff.1 hother)]

theorem mem_names_setAll (hnodup : (globals.map Prod.fst).Nodup) :
    name ∈ (s.setAll globals).names ↔ name ∈ s.names ∨ name ∈ globals.map Prod.fst := by
  have hmem (t : Session) : name ∈ t.names ↔ name ∈ t.env.globalNames := List.mem_mergeSort
  rw [hmem, hmem, globalNames_setAll hnodup, List.mem_append, List.mem_filter]
  by_cases hname : name ∈ s.env.globalNames <;> simp [hname]

end Session

/-! ### Variables and the globals they set -/

/-- The globals that variables set. -/
def settings (order : List (String × HostData)) : List (String × Value) :=
  order.filterMap fun (name, d) => d.toValue.toOption.map (name, ·)

section Settings

variable {path name : String} {s : Session} {order : List (String × HostData)} {d : HostData}
  {v : Value}

theorem mem_settings_iff :
    (name, v) ∈ settings order ↔ ∃ d : HostData, (name, d) ∈ order ∧ d.Represents v := by
  simp only [settings, List.mem_filterMap, Option.map_eq_some_iff, Prod.exists, Prod.mk.injEq]
  constructor
  · rintro ⟨_, d, hmem, _, hvalue, rfl, rfl⟩
    refine ⟨d, hmem, HostData.toValue_eq_ok_iff.1 ?_⟩
    cases hd : d.toValue with
    | error cause =>
        rw [hd] at hvalue
        cases hvalue
    | ok w =>
        rw [hd] at hvalue
        cases hvalue
        rfl
  · rintro ⟨d, hmem, hd⟩
    exact ⟨name, d, hmem, v, by rw [hd.toValue_eq]; rfl, rfl, rfl⟩

theorem settings_cons (hd : d.toValue = .ok v) :
    settings ((name, d) :: order) = (name, v) :: settings order := by
  simp [settings, hd, Except.toOption]

theorem map_fst_settings (h : ∀ p ∈ order, ∃ v, p.2.Represents v) :
    (settings order).map Prod.fst = order.map Prod.fst := by
  induction order with
  | nil => rfl
  | cons p order ih =>
      obtain ⟨name, d⟩ := p
      obtain ⟨⟨v, hd⟩, hrest⟩ := List.forall_mem_cons.1 h
      rw [settings_cons hd.toValue_eq, List.map_cons, List.map_cons, ih hrest]

/-- Where all data have values, setting the variables sets those globals. -/
theorem setVariables_eq (path : String) (s : Session) (h : ∀ p ∈ order, ∃ v, p.2.Represents v) :
    Exec.setVariables path order s = .ok () (s.setAll (settings order)) := by
  induction order generalizing s with
  | nil => rfl
  | cons p order ih =>
      obtain ⟨name, d⟩ := p
      obtain ⟨⟨v, hd⟩, hrest⟩ := List.forall_mem_cons.1 h
      have hset : Exec.setVariable path name d s = .ok () (s.set name v) := by
        rw [Exec.setVariable, hd.toValue_eq]
        rfl
      rw [settings_cons hd.toValue_eq, Session.setAll_cons, ← ih _ hrest]
      exact bind_of_ok hset

end Settings

/-- What a host can see of the globals: their names, and what each name stands for. -/
structure View where
  names : List String
  value? : String → Option Value

/-- The view of a session. -/
def Session.view (s : Session) : View :=
  ⟨s.names, s.get?⟩

theorem loadVariables_eq {path content : String} {found : List (String × HostData)}
    (h : Yaml.read content = .ok found) :
    Exec.loadVariables path content = Exec.setVariables path found := by
  unfold Exec.loadVariables Exec.setVariables
  simp only [h]

/-- In whatever order the entries of a mapping are set, the session looks the same. -/
theorem view_of_perm (path : String) (s : Session) {found order : List (String × HostData)}
    (hnodup : (found.map Prod.fst).Nodup) (hvalues : ∀ p ∈ found, ∃ v, p.2.Represents v)
    (h : order.Perm found) :
    ∃ t, Exec.setVariables path order s = .ok () t ∧
      t.view = (s.setAll (settings found)).view := by
  have hsettings : ((settings found).map Prod.fst).Nodup := by rwa [map_fst_settings hvalues]
  have hperm : (settings order).Perm (settings found) := h.filterMap _
  refine ⟨_, setVariables_eq path s fun p hp => hvalues p (h.mem_iff.1 hp), ?_⟩
  rw [Session.view, Session.view, Session.names_setAll_of_perm hsettings hperm]
  exact congrArg _ (funext fun name => Session.get?_setAll_of_perm hsettings hperm name)

/-- The listing of the globals has the names, each with its value. -/
theorem mem_globals_iff {s : Session} {name : String} {v : Value} :
    (name, v) ∈ s.globals ↔ name ∈ s.names ∧ s.get? name = some v := by
  simp [Session.globals, List.mem_filterMap]

theorem map_fst_globals (s : Session) : s.globals.map Prod.fst = s.names := by
  have hvalue : ∀ name ∈ s.names, ∃ v, s.get? name = some v := by
    intro name hname
    obtain ⟨i, hi⟩ := Option.isSome_iff_exists.1 (Environment.mem_names.1 hname)
    have hlt : i < s.env.globals.length := Environment.lt_of_globalIndex? hi
    refine ⟨s.env.globals[i].2, ?_⟩
    simp [Session.get?, Environment.get?, hi, Environment.global?_eq, hlt]
  rw [Session.globals, List.map_filterMap]
  refine (List.filterMap_congr fun name hname => ?_).trans (List.filterMap_some (l := s.names))
  obtain ⟨v, hv⟩ := hvalue name hname
  rw [hv]
  rfl

/-! ### The globals as data -/

namespace Session

theorem hostData_eq_map (s : Session) :
    s.hostData = s.globals.map fun (name, v) => (name, HostData.ofValue v) := by
  rw [hostData, globals, List.map_filterMap]
  refine List.filterMap_congr fun name _ => ?_
  rw [Option.map_map]
  rfl

theorem map_fst_hostData (s : Session) : s.hostData.map Prod.fst = s.names := by
  rw [hostData_eq_map, List.map_map, ← map_fst_globals]
  rfl

theorem represents_of_mem_hostData {s : Session} :
    ∀ p ∈ s.hostData, ∃ v, p.2.Represents v := by
  intro p hp
  rw [hostData_eq_map] at hp
  obtain ⟨⟨name, v⟩, -, rfl⟩ := List.mem_map.1 hp
  exact ⟨v, HostData.toValue_eq_ok_iff.1 (HostData.toValue_ofValue v)⟩

/-- The data of the globals set these globals again. -/
theorem settings_hostData (s : Session) : settings s.hostData = s.globals := by
  rw [settings, hostData_eq_map, List.filterMap_map]
  refine (List.filterMap_congr fun g _ => ?_).trans (List.filterMap_some (l := s.globals))
  have hvalue : (HostData.ofValue g.2).toValue = .ok g.2 := HostData.toValue_ofValue g.2
  simp only [Function.comp_apply, hvalue]
  rfl

theorem nodup_names {s : Session} (hs : s.env.Distinct) : s.names.Nodup :=
  (Environment.pairwise_names hs).imp String.ne_of_lt

/-- Set in a session without globals, all globals of a session come back. -/
theorem sameGlobals_setAll {s fresh : Session} (hs : s.env.Distinct)
    (hfresh : fresh.env.globals = []) : (fresh.setAll s.globals).SameGlobals s := by
  have hnodup : (s.globals.map Prod.fst).Nodup := by
    rw [map_fst_globals]
    exact nodup_names hs
  refine ⟨Environment.names_eq_of_perm ?_, fun name hname => ?_⟩
  · have hnone : fresh.env.globalNames = [] := by
      rw [Environment.globalNames, ← Environment.map_fst_globals, hfresh, List.map_nil]
    have hlisted : s.names.Perm s.env.globalNames := List.mergeSort_perm _ _
    rw [globalNames_setAll hnodup, hnone, map_fst_globals]
    simpa using hlisted
  · rw [← map_fst_globals] at hname
    obtain ⟨⟨_, v⟩, hmem, rfl⟩ := List.mem_map.1 hname
    rw [get?_setAll_of_mem hnodup hmem, (mem_globals_iff.1 hmem).2]

/-- The data of the globals, set in any order in a session without globals, bring them back. -/
theorem sameGlobals_of_perm (path : String) {s fresh : Session} {order : List (String × HostData)}
    (hs : s.env.Distinct) (hfresh : fresh.env.globals = []) (h : order.Perm s.hostData) :
    ∃ t, Exec.setVariables path order fresh = .ok () t ∧ t.SameGlobals s := by
  have hnodup : (s.hostData.map Prod.fst).Nodup := by
    rw [map_fst_hostData]
    exact nodup_names hs
  obtain ⟨t, ht, hview⟩ := view_of_perm path fresh hnodup represents_of_mem_hostData h
  rw [settings_hostData] at hview
  obtain ⟨hnames, hvalues⟩ := sameGlobals_setAll hs hfresh
  exact ⟨t, ht, (congrArg View.names hview).trans hnames, fun name hname =>
    (congrFun (congrArg View.value? hview) name).trans (hvalues name hname)⟩

end Session

/-! ### Writing the globals -/

namespace Yaml

mutual

/-- The data of values can be written. -/
theorem Writer.exists_node (indent : Nat) :
    ∀ v : Value, ∃ text, node indent (HostData.ofValue v) = some text
  | .string _ | .int _ | .float _ | .bool _ => ⟨_, rfl⟩
  | .array [] => ⟨_, rfl⟩
  | .array (v :: vs) => by
      obtain ⟨first, hfirst⟩ := Writer.exists_node (indent + 2) v
      obtain ⟨others, hothers⟩ := Writer.exists_items indent vs
      exact ⟨_, by rw [HostData.ofValue, HostData.ofValues, node, hfirst, hothers]; rfl⟩

theorem Writer.exists_items (indent : Nat) :
    ∀ vs : List Value, ∃ text, items indent (HostData.ofValues vs) = some text
  | [] => ⟨_, rfl⟩
  | v :: vs => by
      obtain ⟨first, hfirst⟩ := Writer.exists_node (indent + 2) v
      obtain ⟨others, hothers⟩ := Writer.exists_items indent vs
      exact ⟨_, by rw [HostData.ofValues, items, hfirst, hothers]; rfl⟩

end

theorem Writer.exists_entry (name : String) (v : Value) :
    ∃ text, entry name (HostData.ofValue v) = some text := by
  obtain ⟨written, hwritten⟩ := Writer.exists_node 2 v
  rw [entry, hwritten]
  by_cases hlong : isLongKey name <;> simp [hlong]

theorem exists_mapM {α β : Type} {f : α → Option β} {as : List α}
    (h : ∀ a ∈ as, ∃ b, f a = some b) : ∃ bs, as.mapM f = some bs := by
  induction as with
  | nil => exact ⟨[], rfl⟩
  | cons a as ih =>
      obtain ⟨⟨b, hb⟩, hrest⟩ := List.forall_mem_cons.1 h
      obtain ⟨bs, hbs⟩ := ih hrest
      exact ⟨b :: bs, by rw [List.mapM_cons, hb, hbs]; rfl⟩

/-- The globals of every session can be written. -/
theorem exists_write (s : Session) : ∃ text, write s.hostData = some text := by
  unfold write
  split
  · exact ⟨_, rfl⟩
  · have hentries : ∀ p ∈ KeyOrder.sort s.hostData, ∃ text, Writer.entry p.1 p.2 = some text := by
      intro p hp
      rw [KeyOrder.sort, List.mem_mergeSort, Session.hostData_eq_map] at hp
      obtain ⟨⟨name, v⟩, -, rfl⟩ := List.mem_map.1 hp
      exact Writer.exists_entry name v
    obtain ⟨texts, htexts⟩ := exists_mapM hentries
    exact ⟨_, by rw [htexts]; rfl⟩

end Yaml

/-! ### Reading back what was written

For data as documents have them it can be computed whether they are those of given values. -/

namespace HostData

mutual

/-- Whether a datum is that of a value, in which no double occurs. -/
def agrees : HostData → Value → Bool
  | text s, .string t => s == t
  | bool a, .bool b => a == b
  | int64 m, .int n => m == n
  | list ds, .array vs => agreesAll ds vs
  | _, _ => false

/-- Whether data are those of values, one by one. -/
def agreesAll : List HostData → List Value → Bool
  | [], [] => true
  | d :: ds, v :: vs => agrees d v && agreesAll ds vs
  | _, _ => false

end

mutual

theorem eq_ofValue : ∀ (d : HostData) (v : Value), d.agrees v = true → d = ofValue v
  | text _, .string _, h => congrArg text (beq_iff_eq.1 h)
  | bool _, .bool _, h => congrArg bool (beq_iff_eq.1 h)
  | int64 _, .int _, h => congrArg int64 (beq_iff_eq.1 h)
  | list ds, .array vs, h => congrArg list (eq_ofValues ds vs h)

theorem eq_ofValues : ∀ (ds : List HostData) (vs : List Value),
    agreesAll ds vs = true → ds = ofValues vs
  | [], [], _ => rfl
  | d :: ds, v :: vs, h => by
      obtain ⟨hd, hds⟩ := Bool.and_eq_true_iff.1 h
      rw [eq_ofValue d v hd, eq_ofValues ds vs hds, ofValues]

end

end HostData

/-- Whether data are those of the named values, in the same order. -/
def describes : List (String × HostData) → List (String × Value) → Bool
  | [], [] => true
  | (name, d) :: found, (other, v) :: globals =>
      name == other && d.agrees v && describes found globals
  | _, _ => false

theorem eq_map_of_describes {found : List (String × HostData)} {globals : List (String × Value)}
    (h : describes found globals = true) :
    found = globals.map fun (name, v) => (name, HostData.ofValue v) := by
  fun_induction describes found globals with
  | case1 => rfl
  | case2 name d found other v globals ih =>
      simp only [Bool.and_eq_true, beq_iff_eq] at h
      obtain ⟨⟨rfl, hd⟩, hrest⟩ := h
      rw [List.map_cons, ← ih hrest, d.eq_ofValue v hd]
  | case3 => cases h

/-- Whether a text is read as the data of the named values, in the same order. -/
def readsBack (text : String) (globals : List (String × Value)) : Bool :=
  match Yaml.read text with
  | .ok found => describes found globals
  | .error _ => false

theorem read_of_readsBack {text : String} {globals : List (String × Value)}
    (h : readsBack text globals = true) :
    Yaml.read text = .ok (globals.map fun (name, v) => (name, HostData.ofValue v)) := by
  unfold readsBack at h
  split at h
  · rename_i found hfound
    rw [hfound, eq_map_of_describes h]
  · cases h

theorem reachable_setAll {natives : Native → Prop} {accepted : List String} {s : Session}
    (h : Reachable natives accepted s) (globals : List (String × Value)) :
    ∃ accepted', Reachable natives accepted' (s.setAll globals) := by
  induction globals generalizing s accepted with
  | nil => exact ⟨accepted, h⟩
  | cons g globals ih =>
      exact ih (@Reachable.answered _ _ _ _ (.set g.1 g.2) 0 _ h trivial rfl)

/-- Globals set in a new session in increasing order of their names are listed as they are. -/
theorem globals_setAll_empty {globals : List (String × Value)}
    (h : (globals.map Prod.fst).Pairwise (· < ·)) :
    (Session.empty.setAll globals).globals = globals := by
  have hnodup : (globals.map Prod.fst).Nodup := h.imp String.ne_of_lt
  have hnames : (Session.empty.setAll globals).names = globals.map Prod.fst := by
    have hall : (Session.empty.setAll globals).env.globalNames = globals.map Prod.fst := by
      rw [Session.globalNames_setAll hnodup]
      simp [Session.empty, Environment.empty, Environment.globalNames, Table.empty, Table.names]
    rw [Session.names, Environment.names, ← Environment.globalNames, hall]
    exact List.mergeSort_of_pairwise (h.imp fun hlt =>
      decide_eq_true (String.not_lt.1 (String.lt_asymm hlt)))
  rw [Session.globals, hnames, List.filterMap_map]
  refine (List.filterMap_congr fun g hg => ?_).trans (List.filterMap_some (l := globals))
  rw [Function.comp_apply, Session.get?_setAll_of_mem hnodup hg]
  rfl

/-- A text, a negative number and a list with a list inside. -/
def threeGlobals : List (String × Value) :=
  [("count", .int (-3)), ("flags", .array [.bool true, .array [.string "true"]]),
    ("label", .string "x y")]

/-- The globals as a document. -/
def threeText : String := "count: -3\nflags:\n  - true\n  - - \"true\"\nlabel: x y\n"

theorem write_threeGlobals :
    Yaml.write (threeGlobals.map fun (name, v) => (name, HostData.ofValue v)) =
      some threeText := by
  rw [Yaml.write, Yaml.KeyOrder.sort, List.mergeSort_of_pairwise (by decide +kernel)]
  decide +kernel

theorem read_threeText :
    Yaml.read threeText = .ok (threeGlobals.map fun (name, v) => (name, HostData.ofValue v)) :=
  read_of_readsBack (by decide +kernel)

/-- A document of variables is a mapping, and loading it sets its variables in the order of the
text. Any mapping whose data have values can be set in any order: the names and values afterwards
are the same, those of the mapping stand for its data, and the others are left as they were. The
globals of every session can be written as a document, from the mapping of their names to their
data. If reading gives back this mapping, then loading the document into a session without globals
restores them, with the same names and values, and so does setting the entries in any order. -/
theorem variables_in_any_order (path : String) :
    (∀ content found, Yaml.read content = .ok found →
      (found.map Prod.fst).Nodup ∧
        Exec.loadVariables path content = Exec.setVariables path found) ∧
    (∀ (s : Session) (found : List (String × HostData)), (found.map Prod.fst).Nodup →
      (∀ p ∈ found, ∃ v, p.2.Represents v) →
      ∃ after : View,
        (∀ order, order.Perm found →
          ∃ t, Exec.setVariables path order s = .ok () t ∧ t.view = after) ∧
        (∀ name d, (name, d) ∈ found →
          name ∈ after.names ∧ ∃ v, d.Represents v ∧ after.value? name = some v) ∧
        ∀ name, name ∉ found.map Prod.fst →
          (name ∈ after.names ↔ name ∈ s.names) ∧ after.value? name = s.get? name) ∧
    ∀ (natives : Native → Prop) (accepted : List String) (s : Session),
      Reachable natives accepted s →
      ∃ text, Yaml.write s.hostData = some text ∧ s.dump = text ∧
        ∀ found, Yaml.read text = .ok found → found.Perm s.hostData →
        ∀ fresh : Session, fresh.env.globals = [] →
          (∃ t, Exec.loadVariables path s.dump fresh = .ok () t ∧ t.SameGlobals s) ∧
          ∀ order, order.Perm found →
            ∃ t, Exec.setVariables path order fresh = .ok () t ∧ t.SameGlobals s := by
  refine ⟨fun content found h => ⟨Yaml.nodup_of_read h, loadVariables_eq h⟩, ?_, ?_⟩
  · intro s found hnodup hvalues
    have hkeys := map_fst_settings hvalues
    have hsettings : ((settings found).map Prod.fst).Nodup := by rwa [hkeys]
    refine ⟨(s.setAll (settings found)).view, fun order => view_of_perm path s hnodup hvalues,
      fun name d hd => ?_, fun name hname => ?_⟩
    · obtain ⟨v, hv⟩ := hvalues _ hd
      have hmem := mem_settings_iff.2 ⟨d, hd, hv⟩
      refine ⟨(Session.mem_names_setAll hsettings).2 (.inr (List.mem_map_of_mem hmem)), v, hv, ?_⟩
      exact Session.get?_setAll_of_mem hsettings hmem
    · rw [← hkeys] at hname
      refine ⟨(Session.mem_names_setAll hsettings).trans (or_iff_left hname), ?_⟩
      exact Session.get?_setAll_of_not_mem hname
  · intro natives accepted s hs
    obtain ⟨text, hwrite⟩ := Yaml.exists_write s
    have hdump : s.dump = text := by
      rw [Session.dump, hwrite]
      rfl
    refine ⟨text, hwrite, hdump, fun found hread hfound fresh hfresh => ?_⟩
    have hdistinct : s.env.Distinct := lasting_distinct.reachable List.nodup_nil hs
    refine ⟨?_, fun order horder =>
      Session.sameGlobals_of_perm path hdistinct hfresh (horder.trans hfound)⟩
    rw [hdump, loadVariables_eq hread]
    exact Session.sameGlobals_of_perm path hdistinct hfresh hfound

theorem variables_in_any_order_three :
    (∃ after : View,
      (∀ order, order.Perm [("label", .int8 1), ("more", .list [])] →
        ∃ t, Exec.setVariables "v.yaml" order (Session.empty.setAll threeGlobals) = .ok () t ∧
          t.view = after) ∧
      after.value? "label" = some (.int 1) ∧
      after.value? "count" = some (.int (-3))) ∧
    ∃ found, Yaml.read (Session.empty.setAll threeGlobals).dump = .ok found ∧
      (∃ t, Exec.loadVariables "v.yaml" (Session.empty.setAll threeGlobals).dump Session.empty =
        .ok () t ∧ t.names = ["count", "flags", "label"]) ∧
      ∃ t, Exec.setVariables "v.yaml" found.reverse Session.empty = .ok () t ∧
        t.names = ["count", "flags", "label"] ∧ t.get? "label" = some (.string "x y") := by
  have hsorted : (threeGlobals.map Prod.fst).Pairwise (· < ·) := by decide +kernel
  have hglobals := globals_setAll_empty hsorted
  have hnames : (Session.empty.setAll threeGlobals).names = ["count", "flags", "label"] := by
    rw [← map_fst_globals, hglobals]
    rfl
  have hget {name : String} {v : Value} (h : (name, v) ∈ threeGlobals) :
      (Session.empty.setAll threeGlobals).get? name = some v :=
    Session.get?_setAll_of_mem (hsorted.imp String.ne_of_lt) h
  obtain ⟨-, hmapping, hrestored⟩ := variables_in_any_order "v.yaml"
  refine ⟨?_, ?_⟩
  · obtain ⟨after, horder, hvalues, hothers⟩ :=
      hmapping (Session.empty.setAll threeGlobals) [("label", .int8 1), ("more", .list [])]
        (by decide) (List.forall_mem_cons.2 ⟨⟨_, HostData.toValue_eq_ok_iff.1 rfl⟩,
          List.forall_mem_cons.2 ⟨⟨_, HostData.toValue_eq_ok_iff.1 rfl⟩, nofun⟩⟩)
    refine ⟨after, horder, ?_, ?_⟩
    · obtain ⟨-, v, hv, hafter⟩ := hvalues "label" (.int8 1) (.head _)
      cases hv.toValue_eq
      exact hafter
    · rw [(hothers "count" (by decide)).2]
      exact hget (.head _)
  · have hdata : (Session.empty.setAll threeGlobals).hostData =
        threeGlobals.map fun (name, v) => (name, HostData.ofValue v) := by
      rw [Session.hostData_eq_map, hglobals]
    obtain ⟨accepted, hreachable⟩ :=
      reachable_setAll (@Reachable.start fun _ => True) threeGlobals
    obtain ⟨text, hwrite, hdump, hloads⟩ := hrestored _ _ _ hreachable
    rw [hdata, write_threeGlobals] at hwrite
    cases hwrite
    have hread := read_threeText
    rw [← hdata] at hread
    obtain ⟨⟨t, ht, hsame⟩, horders⟩ := hloads _ hread (.refl _) Session.empty rfl
    obtain ⟨u, hu, hnames', hvalues⟩ := horders _ (List.reverse_perm _)
    refine ⟨_, by rw [hdump, hread], ⟨t, ht, hsame.names.trans hnames⟩, u, hu,
      hnames'.trans hnames, ?_⟩
    rw [hvalues "label" (by rw [hnames]; decide)]
    exact hget (.tail _ (.tail _ (.head _)))

end Scriptlet
