import Scriptlet.Proofs.Number.Distance
import Scriptlet.Value.Comparison

/-!
# Laws of comparison

Equality and order are two functions, each with its own way to tell the kinds of its operands
apart. Equality is symmetric on all values, and a value in which no double occurs equals itself.
On integers, on texts and on truth values the two fit together: both go by the order of a key
(`OrderedBy`), so that exactly one of less, equal and greater holds. Where the kinds have
nothing in common there is no order at all. The main statement is `comparison_laws`.
-/

namespace Scriptlet.Value

/-! ### Equality -/

theorem near_comm (x y : Float) : near x y = near y x := by
  rw [near, near, Binary64.abs_sub_comm]

theorem scalarEquals_string (a : Value) (t : Octets) :
    a.scalarEquals (string t) = (a.text == t) := by
  cases a with
  | string s => rw [scalarEquals, text, text]
  | _ => rfl

theorem scalarEquals_comm (a b : Value) : a.scalarEquals b = b.scalarEquals a := by
  cases b with
  | string t => rw [scalarEquals_string, scalarEquals, Bool.beq_comm]
  | _ =>
      cases a with
      | string s => rw [scalarEquals_string, scalarEquals, Bool.beq_comm]
      | _ => simp only [scalarEquals, number?, near_comm, Bool.beq_comm]

mutual

theorem equals_comm (a b : Value) : a.equals b = b.equals a := by
  cases a with
  | array xs =>
      cases b with
      | array ys => rw [equals, equals, allEqual_comm xs ys]
      | _ => simp only [equals]
  | _ =>
      cases b with
      | array ys => simp only [equals]
      | _ => simp only [equals, scalarEquals_comm]

theorem allEqual_comm (xs ys : List Value) : allEqual xs ys = allEqual ys xs := by
  cases xs with
  | nil => cases ys <;> simp only [allEqual]
  | cons x xs =>
      cases ys with
      | nil => simp only [allEqual]
      | cons y ys => rw [allEqual, allEqual, equals_comm x y, allEqual_comm xs ys]

end

mutual

/-- Whether no double is in a value, at any depth. -/
def floatFree : Value → Bool
  | float _ => false
  | array items => allFloatFree items
  | _ => true

/-- Whether no double is in the elements of an array. -/
def allFloatFree : List Value → Bool
  | [] => true
  | v :: vs => floatFree v && allFloatFree vs

end

mutual

theorem equals_self {a : Value} (h : a.floatFree) : a.equals a := by
  cases a with
  | float x => rw [floatFree] at h; cases h
  | array xs =>
      rw [floatFree] at h
      rw [equals]
      exact allEqual_self h
  | string s => simp only [equals, scalarEquals, text, BEq.rfl]
  | _ => simp only [equals, scalarEquals, BEq.rfl]

theorem allEqual_self {xs : List Value} (h : allFloatFree xs) : allEqual xs xs := by
  cases xs with
  | nil => rw [allEqual]
  | cons x xs =>
      rw [allFloatFree, Bool.and_eq_true] at h
      rw [allEqual, Bool.and_eq_true]
      exact ⟨equals_self h.1, allEqual_self h.2⟩

end

/-! ### Order -/

/-- Whether the values of a kind are all ordered among each other. Doubles are not, because of
those that are no number. -/
def Kind.isTotal : Kind → Bool
  | string | int | bool => true
  | float | array => false

/-- Whether the values of a kind are numbers. -/
def Kind.isNumeric : Kind → Bool
  | int | float => true
  | string | bool | array => false

/-- Order and equality of the values that `make` gives are those of a key. -/
structure OrderedBy {α β : Type} [Ord β] (make : α → Value) (key : α → β) : Prop where
  order : ∀ x y, (make x).order? (make y) = some (compare (key x) (key y))
  equal : ∀ x y, (make x).equals (make y) = (compare (key x) (key y)).isEq

theorem orderedBy_int : OrderedBy int Int64.toInt where
  order m n := rfl
  equal m n := by
    simp only [equals, scalarEquals]
    rw [Bool.eq_iff_iff, beq_iff_eq, Ordering.isEq_iff_eq_eq, Std.compare_eq_iff_eq,
      Int64.toInt_inj]

theorem orderedBy_string : OrderedBy string Octets.bytes where
  order s t := rfl
  equal s t := by
    simp only [equals, scalarEquals, text]
    rw [Bool.eq_iff_iff, beq_iff_eq, Ordering.isEq_iff_eq_eq, Std.compare_eq_iff_eq,
      Octets.ext_iff]

theorem orderedBy_bool : OrderedBy bool Bool.toNat where
  order p q := rfl
  equal p q := by cases p <;> cases q <;> rfl

namespace OrderedBy

variable {α β : Type} [Ord β] {make : α → Value} {key : α → β}

/-- Exactly one of the three holds, and the other two comparisons are put together from them. -/
theorem trichotomy (h : OrderedBy make key) (x y : α) :
    [(make x).less (make y), (make x).equals (make y), (make x).greater (make y)].count true = 1 ∧
      (make x).lessEq (make y) = ((make x).less (make y) || (make x).equals (make y)) ∧
      (make x).greaterEq (make y) = ((make x).greater (make y) || (make x).equals (make y)) := by
  rw [less, greater, lessEq, greaterEq, h.order, h.equal]
  cases compare (key x) (key y) <;> decide

theorem less_iff (h : OrderedBy make key) {x y : α} :
    (make x).less (make y) ↔ compare (key x) (key y) = .lt := by
  rw [less, h.order, Option.any_some, beq_iff_eq]

theorem less_trans [Std.TransOrd β] (h : OrderedBy make key) {x y z : α}
    (hxy : (make x).less (make y)) (hyz : (make y).less (make z)) : (make x).less (make z) := by
  rw [h.less_iff] at hxy hyz ⊢
  exact Std.TransCmp.lt_trans hxy hyz

end OrderedBy

variable {a b c : Value}

theorem trichotomy_of_isTotal (hkind : a.kind = b.kind) (htotal : a.kind.isTotal) :
    [a.less b, a.equals b, a.greater b].count true = 1 ∧
      a.lessEq b = (a.less b || a.equals b) ∧ a.greaterEq b = (a.greater b || a.equals b) := by
  cases a with
  | string s =>
      cases b with
      | string t => exact orderedBy_string.trichotomy s t
      | _ => cases hkind
  | int m =>
      cases b with
      | int n => exact orderedBy_int.trichotomy m n
      | _ => cases hkind
  | bool p =>
      cases b with
      | bool q => exact orderedBy_bool.trichotomy p q
      | _ => cases hkind
  | _ => cases htotal

theorem less_trans_of_isTotal (hkind : a.kind = b.kind) (hkind' : b.kind = c.kind)
    (htotal : a.kind.isTotal) (hab : a.less b) (hbc : b.less c) : a.less c := by
  cases a with
  | string s =>
      cases b with
      | string t =>
          cases c with
          | string u => exact orderedBy_string.less_trans hab hbc
          | _ => cases hkind'
      | _ => cases hkind
  | int m =>
      cases b with
      | int n =>
          cases c with
          | int k => exact orderedBy_int.less_trans hab hbc
          | _ => cases hkind'
      | _ => cases hkind
  | bool p =>
      cases b with
      | bool q =>
          cases c with
          | bool r => exact orderedBy_bool.less_trans hab hbc
          | _ => cases hkind'
      | _ => cases hkind
  | _ => cases htotal

/-- Two values have no order if one is an array, or if their kinds differ and are not both
numeric. -/
theorem order?_eq_none (h : a.kind = .array ∨ b.kind = .array ∨
    a.kind ≠ b.kind ∧ ¬(a.kind.isNumeric ∧ b.kind.isNumeric)) : a.order? b = none := by
  cases a <;> cases b <;> simp_all [order?, number?, kind, Kind.isNumeric]

/-- Equality is symmetric, and reflexive where no double is involved. Two integers, two texts or
two truth values are in exactly one of the relations less, equal and greater, and less is
transitive. Values whose kinds have no common order are in none of the four relations of order. -/
theorem comparison_laws :
    (∀ a b : Value, a.equals b = b.equals a) ∧
    (∀ a : Value, a.floatFree → a.equals a) ∧
    (∀ a b : Value, a.kind = b.kind → a.kind.isTotal →
      [a.less b, a.equals b, a.greater b].count true = 1 ∧
        a.lessEq b = (a.less b || a.equals b) ∧ a.greaterEq b = (a.greater b || a.equals b)) ∧
    (∀ a b c : Value, a.kind = b.kind → b.kind = c.kind → a.kind.isTotal →
      a.less b → b.less c → a.less c) ∧
    ∀ a b : Value, (a.kind = .array ∨ b.kind = .array ∨
        a.kind ≠ b.kind ∧ ¬(a.kind.isNumeric ∧ b.kind.isNumeric)) →
      ∀ relation ∈ [less, lessEq, greater, greaterEq], relation a b = false := by
  refine ⟨equals_comm, fun a => equals_self, fun a b => trichotomy_of_isTotal,
    fun a b c => less_trans_of_isTotal, fun a b h relation hrelation => ?_⟩
  have horder := order?_eq_none h
  simp only [List.mem_cons, List.not_mem_nil, or_false] at hrelation
  obtain rfl | rfl | rfl | rfl := hrelation
  · rw [less, horder, Option.any_none]
  · rw [lessEq, horder, Option.any_none]
  · rw [greater, horder, Option.any_none]
  · rw [greaterEq, horder, Option.any_none]

/-- A text equals a number that is shown as it, from either side, but the two have no order. -/
theorem comparison_laws_text :
    (string "2").equals (int 2) = (int 2).equals (string "2") ∧
      (array [string "b", array [int 2, bool true]]).equals
        (array [string "b", array [int 2, bool true]]) ∧
      [(string "ab").less (string "b"), (string "ab").equals (string "b"),
        (string "ab").greater (string "b")].count true = 1 ∧
      (string "a").less (string "b") ∧
      ∀ relation ∈ [less, lessEq, greater, greaterEq], relation (string "2") (int 3) = false := by
  obtain ⟨hcomm, hself, htotal, htrans, hnone⟩ := comparison_laws
  exact ⟨hcomm _ _, hself _ (by decide), (htotal (string "ab") (string "b") rfl rfl).1,
    htrans _ (string "ab") _ rfl rfl rfl (by decide) (by decide), hnone _ _ (by decide)⟩

end Scriptlet.Value
