import Scriptlet.HostData

/-!
# Data of a host and values

`HostData.Represents` says which value a datum stands for, with one rule for integers of every
width and one for lists of every type of element. `HostData.foreigns` lists what a datum holds
that no value stands for. The main statement is `conversion_of_hostData`: `toValue` gives the
value that is represented, or it fails by the first of the `foreigns`, and `ofValue` gives a
datum that represents the value it was made from.
-/

namespace Scriptlet

namespace HostData

/-- The integer that a datum is, whatever its width. -/
def integer? : HostData → Option Int
  | int8 n => some n.toInt
  | int16 n => some n.toInt
  | int32 n => some n.toInt
  | int64 n => some n.toInt
  | uint8 n => some n.toNat
  | uint16 n => some n.toNat
  | uint32 n => some n.toNat
  | uint64 n => some n.toNat
  | _ => none

/-- The elements of a list, whatever their type. -/
def items? : HostData → Option (List HostData)
  | list items => some items
  | texts items => some (items.map text)
  | ints items => some (items.map int64)
  | floats items => some (items.map float64)
  | bools items => some (items.map bool)
  | _ => none

mutual

/-- Whether a value has the shape of a datum and the same leaves, the integers among them
reduced to sixty-four bits. -/
inductive Represents : HostData → Value → Prop where
  | value (v : Value) : Represents (.value v) v
  | text (s : Octets) : Represents (.text s) (.string s)
  | bool (b : Bool) : Represents (.bool b) (.bool b)
  | single (x : Float32) : Represents (.float32 x) (.float x.toFloat)
  | double (x : Float) : Represents (.float64 x) (.float x)
  | integer {d : HostData} {n : Int} {m : Int64} (h : d.integer? = some n)
      (hm : m.toInt = n.bmod Int64.size) : Represents d (.int m)
  | items {d : HostData} {ds : List HostData} {vs : List Value} (h : d.items? = some ds)
      (hds : RepresentsAll ds vs) : Represents d (.array vs)

/-- Whether values are represented by data, one by one. -/
inductive RepresentsAll : List HostData → List Value → Prop where
  | nil : RepresentsAll [] []
  | cons {d : HostData} {v : Value} {ds : List HostData} {vs : List Value} (h : Represents d v)
      (hds : RepresentsAll ds vs) : RepresentsAll (d :: ds) (v :: vs)

end

mutual

/-- The types of the leaves that no value stands for, from left to right. -/
def foreigns : HostData → List Foreign
  | list items => foreignsAll items
  | foreign type => [type]
  | _ => []

/-- The types of such leaves in a list of data. -/
def foreignsAll : List HostData → List Foreign
  | [] => []
  | d :: ds => foreigns d ++ foreignsAll ds

end

/-! ### Integers and lists -/

variable {d : HostData} {ds : List HostData} {n : Int}

theorem ofInt_toNat (m : UInt64) : Int64.ofInt m.toNat = m.toInt64 := by
  rw [Int64.ofInt_eq_ofNat, ← UInt64.toInt64_ofNat', UInt64.ofNat_toNat]

/-- Of an integer is kept what fits into sixty-four bits. -/
theorem toValue_of_integer (h : d.integer? = some n) : d.toValue = .ok (.int (Int64.ofInt n)) := by
  cases d <;> cases h
  case int8 m => rw [Int64.ofInt_int8ToInt, toValue]
  case int16 m => rw [Int64.ofInt_int16ToInt, toValue]
  case int32 m => rw [Int64.ofInt_int32ToInt, toValue]
  case int64 m => rw [Int64.ofInt_toInt, toValue]
  case uint8 m => rw [← m.toNat_toUInt64, ofInt_toNat, toValue]
  case uint16 m => rw [← m.toNat_toUInt64, ofInt_toNat, toValue]
  case uint32 m => rw [← m.toNat_toUInt64, ofInt_toNat, toValue]
  case uint64 m => rw [ofInt_toNat, toValue]

theorem foreigns_of_integer (h : d.integer? = some n) : d.foreigns = [] := by
  cases d <;> cases h <;> rfl

section Maps

variable {α : Type} {f : α → HostData} {g : α → Value}

theorem toValues_map (h : ∀ a, (f a).toValue = .ok (g a)) (as : List α) :
    toValues (as.map f) = .ok (as.map g) := by
  induction as with
  | nil => rfl
  | cons a as ih =>
      rw [List.map_cons, List.map_cons, toValues, h, ih]
      rfl

theorem foreignsAll_map (h : ∀ a, (f a).foreigns = []) (as : List α) :
    foreignsAll (as.map f) = [] := by
  induction as with
  | nil => rfl
  | cons a as ih => rw [List.map_cons, foreignsAll, h, ih, List.append_nil]

end Maps

/-- A list is converted element by element, whatever their type. -/
theorem toValue_of_items (h : d.items? = some ds) : d.toValue = (toValues ds).map .array := by
  cases d <;> cases h
  case list => rw [toValue]
  case texts items => rw [toValues_map (g := .string) fun _ => rfl, toValue, Except.map]
  case ints items => rw [toValues_map (g := .int) fun _ => rfl, toValue, Except.map]
  case floats items => rw [toValues_map (g := .float) fun _ => rfl, toValue, Except.map]
  case bools items => rw [toValues_map (g := .bool) fun _ => rfl, toValue, Except.map]

theorem foreigns_of_items (h : d.items? = some ds) : d.foreigns = foreignsAll ds := by
  cases d <;> cases h
  case list => rw [foreigns]
  all_goals
    rw [foreignsAll_map fun _ => rfl]
    rfl

/-! ### Both ways -/

mutual

theorem toValue_ofValue : ∀ v : Value, (ofValue v).toValue = .ok v
  | .string s => rfl
  | .int n => rfl
  | .float x => rfl
  | .bool b => rfl
  | .array items => by rw [ofValue, toValue, toValues_ofValues items, Except.map]

theorem toValues_ofValues : ∀ vs : List Value, toValues (ofValues vs) = .ok vs
  | [] => rfl
  | v :: vs => by
      rw [ofValues, toValues, toValue_ofValue v, toValues_ofValues vs]
      rfl

end

mutual

/-- What is represented is what conversion gives. -/
theorem Represents.toValue_eq {d : HostData} {v : Value} : d.Represents v → d.toValue = .ok v
  | .value v => rfl
  | .text s => rfl
  | .bool b => rfl
  | .single x => rfl
  | .double x => rfl
  | .integer h hm => by
      rw [toValue_of_integer h, Int64.toInt_inj.1 (hm.trans Int64.toInt_ofInt.symm)]
  | .items h hds => by rw [toValue_of_items h, hds.toValues_eq, Except.map]

theorem RepresentsAll.toValues_eq {ds : List HostData} {vs : List Value} :
    RepresentsAll ds vs → toValues ds = .ok vs
  | .nil => rfl
  | .cons h hds => by
      rw [toValues, h.toValue_eq, hds.toValues_eq]
      rfl

end

/-- How a conversion ends: with what is represented, if there is no leaf that has no value,
and else with the first of them. -/
def Ends {α β : Type} (represents : α → β → Prop) (a : α) (leaves : List Foreign) :
    Except Cause β → Prop
  | .ok b => leaves = [] ∧ represents a b
  | .error cause => ∃ type, leaves.head? = some type ∧ cause = .inconvertible type.typeName

theorem ends_of_integer (h : d.integer? = some n) : Ends Represents d d.foreigns d.toValue := by
  rw [toValue_of_integer h]
  exact ⟨foreigns_of_integer h, .integer h Int64.toInt_ofInt⟩

theorem ends_of_items (h : d.items? = some ds)
    (hds : Ends RepresentsAll ds (foreignsAll ds) (toValues ds)) :
    Ends Represents d d.foreigns d.toValue := by
  rw [toValue_of_items h, foreigns_of_items h]
  cases hvalues : toValues ds with
  | error cause =>
      rw [hvalues] at hds
      exact hds
  | ok vs =>
      rw [hvalues] at hds
      exact ⟨hds.1, .items h hds.2⟩

theorem ends_cons (hd : Ends Represents d d.foreigns d.toValue)
    (hds : Ends RepresentsAll ds (foreignsAll ds) (toValues ds)) :
    Ends RepresentsAll (d :: ds) (foreignsAll (d :: ds)) (toValues (d :: ds)) := by
  rw [toValues, foreignsAll]
  cases hvalue : d.toValue with
  | error cause =>
      -- The first leaf of the first datum that has one is the first of all.
      rw [hvalue] at hd
      obtain ⟨type, hhead, rfl⟩ := hd
      obtain ⟨rest, hforeigns⟩ := List.head?_eq_some_iff.1 hhead
      exact ⟨type, by rw [hforeigns]; rfl, rfl⟩
  | ok v =>
      rw [hvalue] at hd
      obtain ⟨hforeigns, hv⟩ := hd
      rw [hforeigns, List.nil_append]
      cases hvalues : toValues ds with
      | error cause =>
          rw [hvalues] at hds
          exact hds
      | ok vs =>
          rw [hvalues] at hds
          exact ⟨hds.1, .cons hv hds.2⟩

theorem ends_map {α : Type} {f : α → HostData}
    (h : ∀ a, Ends Represents (f a) (f a).foreigns (f a).toValue) (as : List α) :
    Ends RepresentsAll (as.map f) (foreignsAll (as.map f)) (toValues (as.map f)) := by
  induction as with
  | nil => exact ⟨rfl, .nil⟩
  | cons a as ih => exact ends_cons (h a) ih

mutual

theorem ends_toValue : ∀ d : HostData, Ends Represents d d.foreigns d.toValue
  | .value v => ⟨rfl, .value v⟩
  | .text s => ⟨rfl, .text s⟩
  | .bool b => ⟨rfl, .bool b⟩
  | .int8 _ | .int16 _ | .int32 _ | .int64 _ => ends_of_integer rfl
  | .uint8 _ | .uint16 _ | .uint32 _ | .uint64 _ => ends_of_integer rfl
  | .float32 x => ⟨rfl, .single x⟩
  | .float64 x => ⟨rfl, .double x⟩
  | .list items => ends_of_items rfl (ends_toValues items)
  | .texts items => ends_of_items rfl (ends_map (f := .text) (fun s => ⟨rfl, .text s⟩) items)
  | .ints items => ends_of_items rfl (ends_map (f := .int64) (fun _ => ends_of_integer rfl) items)
  | .floats items => ends_of_items rfl (ends_map (f := .float64) (fun x => ⟨rfl, .double x⟩) items)
  | .bools items => ends_of_items rfl (ends_map (f := .bool) (fun b => ⟨rfl, .bool b⟩) items)
  | .foreign type => ⟨type, rfl, rfl⟩

theorem ends_toValues : ∀ ds : List HostData,
    Ends RepresentsAll ds (foreignsAll ds) (toValues ds)
  | [] => ⟨rfl, .nil⟩
  | d :: ds => ends_cons (ends_toValue d) (ends_toValues ds)

end

theorem toValue_eq_ok_iff {v : Value} : d.toValue = .ok v ↔ d.Represents v := by
  refine ⟨fun h => ?_, Represents.toValue_eq⟩
  have hends := ends_toValue d
  rw [h] at hends
  exact hends.2

/-- A conversion fails by the first leaf that no value stands for, and by nothing else. -/
theorem toValue_eq_error_iff {cause : Cause} :
    d.toValue = .error cause ↔
      ∃ type, d.foreigns.head? = some type ∧ cause = .inconvertible type.typeName := by
  have hends := ends_toValue d
  cases hvalue : d.toValue with
  | ok v =>
      rw [hvalue] at hends
      simp [hends.1]
  | error found =>
      rw [hvalue] at hends
      obtain ⟨type, hhead, rfl⟩ := hends
      simp [hhead, eq_comm]

end HostData

open HostData in
/-- The data of a value is converted back to it. A datum of the host, of any shape, is
converted to the one value that it represents, unless it has a leaf that no value stands for:
then the error names the type of the first of these. -/
theorem conversion_of_hostData :
    (∀ v : Value, (ofValue v).toValue = .ok v) ∧
      ∀ d : HostData,
        ((∃ cause, d.toValue = .error cause) ↔ d.foreigns ≠ []) ∧
        (∀ type rest, d.foreigns = type :: rest →
          d.toValue = .error (.inconvertible type.typeName)) ∧
        (∀ v, d.toValue = .ok v ↔ d.Represents v) ∧
        ∀ v, d.toValue = .ok v → (ofValue v).toValue = .ok v := by
  refine ⟨toValue_ofValue, fun d => ⟨?_, ?_, fun v => toValue_eq_ok_iff, ?_⟩⟩
  · simp only [toValue_eq_error_iff]
    cases d.foreigns with
    | nil => simp
    | cons type rest => simp
  · intro type rest hforeigns
    exact toValue_eq_error_iff.2 ⟨type, by rw [hforeigns]; rfl, rfl⟩
  · intro v _
    exact toValue_ofValue v

/-- A list with a number too large for a signed integer, and behind it, further inside, two
leaves that have no value. -/
example : (HostData.list [.uint64 18446744073709551615, .list [.ints [1], .foreign .bytes],
    .foreign (.other "[]int8")]).foreigns = [.bytes, .other "[]int8"] := rfl

end Scriptlet
