import Mathlib.Data.List.Nodup
import Scriptlet.Yaml.Mapping

/-!
# The names of a document are distinct

A mapping of a document is filled entry by entry, by its own entries and by those that are merged
into it. Each step sets the value of one key, so no key comes twice (`Fields.Distinct`), and the
variables of a text have distinct names. The main statement is `nodup_of_read`.
-/

namespace Scriptlet.Yaml

namespace Decode

variable {α β : Type} {P : α → Prop} {Q : β → Prop}

/-- Whether all that an action gives has a property. -/
def Gives (P : α → Prop) (x : Decode α) : Prop :=
  ∀ p a q, x.run p = .ok (a, q) → P a

theorem gives_pure {a : α} (h : P a) : Gives P (pure a) := by
  intro p b q hrun
  cases hrun
  exact h

theorem gives_throw (fault : Fault) : Gives P (throw fault) := by
  intro p a q hrun
  cases hrun

theorem Gives.bind {x : Decode β} {f : β → Decode α} (hx : x.Gives Q)
    (hf : ∀ b, Q b → (f b).Gives P) : (x >>= f).Gives P := by
  intro p a q hrun
  cases hb : x.run p with
  | error fault =>
      rw [StateT.run_bind, hb] at hrun
      cases hrun
  | ok found =>
      rw [StateT.run_bind, hb] at hrun
      exact hf found.1 (hx p found.1 found.2 hb) found.2 a q hrun

/-- What comes before does not matter if the property does not depend on it. -/
theorem gives_bind (x : Decode β) {f : β → Decode α} (hf : ∀ b, (f b).Gives P) :
    (x >>= f).Gives P :=
  Gives.bind (Q := fun _ => True) (fun _ _ _ _ => trivial) fun b _ => hf b

theorem gives_ite {c : Prop} [Decidable c] {x y : Decode α} (hx : x.Gives P) (hy : y.Gives P) :
    (if c then x else y).Gives P := by
  split
  · exact hx
  · exact hy

end Decode

/-! ## The keys that are texts -/

/-- The text that a key is. -/
def Datum.text? : Datum → Option String
  | text name => some name
  | _ => none

/-- The texts among the keys. -/
def textKeys (entries : List (Datum × Datum)) : List String :=
  entries.filterMap fun entry => entry.1.text?

/-- Whether no text is the key of two entries. -/
def Fields.Distinct (f : Fields) : Prop :=
  (textKeys f.entries).Nodup

section Keys

variable {k key v w : Datum} {entries : List (Datum × Datum)} {name : String}

theorem Datum.text?_eq_of_sameKey (h : k.sameKey key = true) : k.text? = key.text? := by
  cases k <;> cases key <;> simp_all [sameKey, text?]

theorem Datum.sameKey_of_text? (hk : k.text? = some name) (hkey : key.text? = some name) :
    k.sameKey key = true := by
  cases k <;> cases key <;> simp_all [sameKey, text?]

theorem textKeys_cons (k v : Datum) (entries : List (Datum × Datum)) :
    textKeys ((k, v) :: entries) = k.text?.toList ++ textKeys entries := by
  unfold textKeys
  cases h : k.text? <;> simp [h]

theorem mem_textKeys_setEntry : name ∈ textKeys (Fields.setEntry key v entries) ↔
    key.text? = some name ∨ name ∈ textKeys entries := by
  induction entries with
  | nil => simp [Fields.setEntry, textKeys, eq_comm]
  | cons entry entries ih =>
      obtain ⟨k, w⟩ := entry
      rw [Fields.setEntry]
      split
      case isTrue hsame =>
        rw [textKeys_cons, textKeys_cons, ← Datum.text?_eq_of_sameKey hsame]
        simp
      case isFalse hsame =>
        rw [textKeys_cons, textKeys_cons, List.mem_append, List.mem_append, ih]
        exact or_left_comm

/-- Setting the value of a key brings in no text a second time. -/
theorem nodup_textKeys_setEntry (h : (textKeys entries).Nodup) :
    (textKeys (Fields.setEntry key v entries)).Nodup := by
  induction entries with
  | nil =>
      rw [Fields.setEntry, textKeys_cons]
      cases key.text? <;> simp [textKeys]
  | cons entry entries ih =>
      obtain ⟨k, w⟩ := entry
      rw [textKeys_cons] at h
      rw [Fields.setEntry]
      split
      case isTrue hsame => rwa [textKeys_cons]
      case isFalse hsame =>
        rw [textKeys_cons]
        refine List.nodup_append.2 ⟨h.of_append_left, ih h.of_append_right, ?_⟩
        rintro name hname _ hother rfl
        have hk : k.text? = some name := Option.mem_toList.1 hname
        obtain hkey | hmem := mem_textKeys_setEntry.1 hother
        · exact hsame (Datum.sameKey_of_text? hk hkey)
        · exact List.nodup_append.1 h |>.2.2 name hname name hmem rfl

end Keys

theorem Fields.Distinct.set {f : Fields} (h : f.Distinct) (key : Datum) (v? : Option Datum) :
    (f.set key v?).Distinct := by
  cases v? with
  | none => exact h
  | some v => exact nodup_textKeys_setEntry h

/-! ## Filling a mapping -/

open Decode

theorem fillOwn_distinct (general : Bool) (depth : Nat) (entries : List (Node × Node)) (f : Fields)
    (h : f.Distinct) : (Node.fillOwn general depth entries f).Gives Fields.Distinct := by
  induction entries generalizing f with
  | nil =>
      rw [Node.fillOwn]
      exact gives_pure h
  | cons entry entries ih =>
      obtain ⟨key, v⟩ := entry
      rw [Node.fillOwn]
      refine gives_ite (ih f h) ?_
      dsimp only
      refine gives_ite ?_ ?_ <;> refine gives_bind _ fun key? => ?_
      all_goals
        cases key? with
        | none => exact ih f h
        | some k =>
            refine gives_ite (gives_bind _ fun _ => ?_) ?_
            all_goals
              refine gives_ite (ih f h) (gives_bind _ fun v? => ?_)
              exact ih _ (Fields.Distinct.set (f := f.close k) h k v?)

section Merging

variable {general : Bool} {depth : Nat} {keys : Decode (List Datum)} {key v : Node}
  {entries : List (Node × Node)} {f : Fields}

/-- The keys that are closed while others are merged do not matter. -/
theorem gives_opened (f : Fields) {x : Decode Fields} (h : x.Gives Fields.Distinct) :
    Gives Fields.Distinct (do
      let all ← x
      return if f.closed?.isSome then all else { all with closed? := none }) := by
  refine h.bind fun all hall => gives_pure ?_
  split
  · exact hall
  · exact hall

theorem fillMerged_seq_distinct {line : Nat} {tag : Tag} {items : List Node} (h : f.Distinct)
    (hrest : (Node.fillMerged general depth keys entries f).Gives Fields.Distinct)
    (hitems : ∀ g : Fields, g.Distinct →
      (Node.fillAll general depth items g).Gives Fields.Distinct) :
    (Node.fillMerged general depth keys ((key, .seq line tag items) :: entries) f).Gives
      Fields.Distinct := by
  rw [Node.fillMerged]
  refine gives_ite ?_ hrest
  dsimp only
  split
  all_goals
    refine gives_bind _ fun closed => gives_opened f ?_
    exact hitems { f with closed? := some closed } h

theorem fillMerged_cons_distinct (hv : ∀ line tag items, v = .seq line tag items → False)
    (h : f.Distinct)
    (hrest : (Node.fillMerged general depth keys entries f).Gives Fields.Distinct)
    (hfill : ∀ g : Fields, g.Distinct → (v.fill general depth g).Gives Fields.Distinct) :
    (Node.fillMerged general depth keys ((key, v) :: entries) f).Gives Fields.Distinct := by
  rw [Node.fillMerged.eq_3 _ _ _ _ _ _ _ hv]
  refine gives_ite ?_ hrest
  dsimp only
  split
  all_goals
    refine gives_bind _ fun closed => gives_ite (gives_bind _ fun _ => ?_) ?_
    all_goals exact gives_opened f (hfill { f with closed? := some closed } h)

end Merging

mutual

theorem fill_distinct (general : Bool) (depth : Nat) : ∀ (node : Node) (f : Fields), f.Distinct →
    (node.fill general depth f).Gives Fields.Distinct
  | .map _ _ entries, f, h => by
      rw [Node.fill]
      refine gives_bind _ fun _ => gives_bind _ fun repeated => ?_
      refine gives_ite (gives_pure h) ?_
      exact (fillOwn_distinct general depth entries f h).bind
        fun own hown => fillMerged_distinct general depth _ entries own hown
  | .reference _ _ target, f, h => by
      rw [Node.fill]
      exact gives_bind _ fun _ => fill_distinct general (depth + 1) target f h
  | .cycle .., f, h => by
      rw [Node.fill]
      exact gives_bind _ fun _ => gives_throw _
  | .scalar .., f, h => by
      rw [Node.fill]
      exact gives_pure h
  | .seq .., f, h => by
      rw [Node.fill]
      exact gives_pure h

theorem fillAll_distinct (general : Bool) (depth : Nat) : ∀ (nodes : List Node) (f : Fields),
    f.Distinct → (Node.fillAll general depth nodes f).Gives Fields.Distinct
  | [], f, h => by
      rw [Node.fillAll]
      exact gives_pure h
  | node :: nodes, f, h => by
      rw [Node.fillAll]
      refine gives_ite (gives_bind _ fun _ => ?_) ?_
      all_goals
        exact (fill_distinct general depth node f h).bind
          fun filled hfilled => fillAll_distinct general depth nodes filled hfilled

theorem fillMerged_distinct (general : Bool) (depth : Nat) (keys : Decode (List Datum)) :
    ∀ (entries : List (Node × Node)) (f : Fields), f.Distinct →
      (Node.fillMerged general depth keys entries f).Gives Fields.Distinct
  | [], f, h => by
      rw [Node.fillMerged]
      exact gives_pure h
  | (_, .seq _ _ items) :: entries, f, h =>
      fillMerged_seq_distinct h (fillMerged_distinct general depth keys entries f h)
        fun g hg => fillAll_distinct general depth items g hg
  | (_, .scalar line tag text) :: entries, f, h =>
      fillMerged_cons_distinct nofun h (fillMerged_distinct general depth keys entries f h)
        fun g hg => fill_distinct general depth (.scalar line tag text) g hg
  | (_, .map line tag inner) :: entries, f, h =>
      fillMerged_cons_distinct nofun h (fillMerged_distinct general depth keys entries f h)
        fun g hg => fill_distinct general depth (.map line tag inner) g hg
  | (_, .reference line name target) :: entries, f, h =>
      fillMerged_cons_distinct nofun h (fillMerged_distinct general depth keys entries f h)
        fun g hg => fill_distinct general depth (.reference line name target) g hg
  | (_, .cycle line name tag mapping) :: entries, f, h =>
      fillMerged_cons_distinct nofun h (fillMerged_distinct general depth keys entries f h)
        fun g hg => fill_distinct general depth (.cycle line name tag mapping) g hg

end

theorem fields_distinct (root : Node) : root.fields.Gives Fields.Distinct := by
  have hempty : Fields.empty.Distinct := List.nodup_nil
  have hrefuse (c : Complaint) : Gives Fields.Distinct (do complain c; return Fields.empty) :=
    gives_bind _ fun _ => gives_pure hempty
  unfold Node.fields
  refine gives_bind _ fun _ => ?_
  split
  · refine gives_bind _ fun _ => gives_bind _ fun d => ?_
    split
    · exact gives_pure hempty
    · exact hrefuse _
  · exact gives_bind _ fun _ => hrefuse _
  · exact fill_distinct false 0 root .empty hempty

/-- The names of the variables are the keys that are texts. -/
theorem map_fst_named (f : Fields) : f.named.map Prod.fst = textKeys f.entries := by
  rw [Fields.named, List.map_filterMap, textKeys]
  refine List.filterMap_congr fun entry _ => ?_
  obtain ⟨k, v⟩ := entry
  cases k <;> rfl

/-- The variables of a text have distinct names. -/
theorem nodup_of_read {text : String} {found : List (String × HostData)}
    (h : read text = .ok found) : (found.map Prod.fst).Nodup := by
  unfold read at h
  split at h
  · cases h
  · cases h
    exact List.nodup_nil
  · split at h
    · cases h
    · rename_i f p hrun
      split at h
      · cases h
        rw [map_fst_named]
        exact fields_distinct _ _ _ _ hrun
      · cases h

end Scriptlet.Yaml
