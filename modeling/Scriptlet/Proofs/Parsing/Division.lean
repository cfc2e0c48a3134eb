import Mathlib.Data.List.Basic
import Mathlib.Data.Nat.Find
import Scriptlet.Proofs.Parsing.Commas

/-!
# Where brackets close and where commas divide

Groups and parts are cut by carrying a depth along. Here the same cuts are described by
counting brackets, whether they are in pairs or not. `Bracket.surplus` is the number of
brackets of one kind that tokens open, less those that they close. A group ends at the first
index up to which the surplus since its opening bracket is zero (`Bracket.ClosesAt`), and parts
end at the commas before which the surplus of both kinds is zero (`topCommas`). The main
statement is `closes_and_divides`.
-/

namespace Scriptlet

/-- The brackets that the tokens open, less those that they close. -/
def Bracket.surplus (b : Bracket) (ts : List Token) : Int :=
  ts.countP (b.opens ·.lexeme) - ts.countP (b.closes ·.lexeme)

/-- The tokens from one index to another, both included. -/
def fromTo (ts : List Token) (first last : Nat) : List Token :=
  (ts.take (last + 1)).drop first

/-- Whether the bracket at `start` closes at the index `i`: the first one after it up to which
as many brackets of its kind are opened as are closed. -/
structure Bracket.ClosesAt (b : Bracket) (ts : List Token) (start i : Nat) : Prop where
  later : start < i
  inside : i < ts.length
  even : b.surplus (fromTo ts start i) = 0
  least : ∀ j, start < j → j < i → b.surplus (fromTo ts start j) ≠ 0

namespace Bracket

variable {b : Bracket} {t : Token} {ts : List Token} {i : Nat}

@[simp] theorem surplus_nil (b : Bracket) : b.surplus [] = 0 := rfl

theorem not_closes_of_opens {l : Lexeme} (h : b.opens l) : ¬b.closes l := by
  revert h
  cases b <;> cases l <;> simp [opens, closes]

theorem surplus_opening (h : b.opens t.lexeme) : b.surplus (t :: ts) = b.surplus ts + 1 := by
  have hcloses : ¬b.closes t.lexeme := not_closes_of_opens h
  simp only [surplus, List.countP_cons, if_pos h, if_neg hcloses]
  omega

theorem surplus_closing (h : b.closes t.lexeme) : b.surplus (t :: ts) = b.surplus ts - 1 := by
  have hopens : ¬b.opens t.lexeme := fun hopens => not_closes_of_opens hopens h
  simp only [surplus, List.countP_cons, if_neg hopens, if_pos h]
  omega

theorem surplus_other (hopens : ¬b.opens t.lexeme) (hcloses : ¬b.closes t.lexeme) :
    b.surplus (t :: ts) = b.surplus ts := by
  simp only [surplus, List.countP_cons, if_neg hopens, if_neg hcloses, Nat.add_zero]

/-! ### Groups -/

/-- Whether the index `i` is the first one up to which the tokens close `depth` brackets more
than they open. -/
structure Falls (b : Bracket) (depth : Nat) (ts : List Token) (i : Nat) : Prop where
  inside : i < ts.length
  even : b.surplus (ts.take (i + 1)) + depth = 0
  least : ∀ j, j < i → b.surplus (ts.take (j + 1)) + depth ≠ 0

/-- One token moves the depth, and with it the depth of the tokens after it. -/
theorem falls_cons_iff {depth inner : Nat}
    (ht : ∀ us, b.surplus (t :: us) + depth = b.surplus us + inner) (hinner : inner ≠ 0) :
    b.Falls depth (t :: ts) i ↔ ∃ j, i = j + 1 ∧ b.Falls inner ts j := by
  constructor
  · rintro ⟨hinside, heven, hleast⟩
    cases i with
    | zero =>
        rw [List.take_succ_cons, List.take_zero, ht, surplus_nil] at heven
        omega
    | succ j =>
        refine ⟨j, rfl, Nat.lt_of_succ_lt_succ hinside, ?_, fun k hk => ?_⟩
        · rw [← ht]
          exact heven
        · rw [← ht]
          exact hleast (k + 1) (Nat.succ_lt_succ hk)
  · rintro ⟨j, rfl, hinside, heven, hleast⟩
    refine ⟨Nat.succ_lt_succ hinside, ?_, fun k hk => ?_⟩
    · rw [List.take_succ_cons, ht]
      exact heven
    · rw [List.take_succ_cons, ht]
      cases k with
      | zero =>
          rw [List.take_zero, surplus_nil]
          omega
      | succ k => exact hleast k (Nat.lt_of_succ_lt_succ hk)

theorem falls_opening (h : b.opens t.lexeme) (depth : Nat) :
    b.Falls (depth + 1) (t :: ts) i ↔ ∃ j, i = j + 1 ∧ b.Falls (depth + 2) ts j := by
  refine falls_cons_iff (fun us => ?_) (Nat.succ_ne_zero _)
  rw [surplus_opening h]
  omega

theorem falls_closing (h : b.closes t.lexeme) (depth : Nat) :
    b.Falls (depth + 2) (t :: ts) i ↔ ∃ j, i = j + 1 ∧ b.Falls (depth + 1) ts j := by
  refine falls_cons_iff (fun us => ?_) (Nat.succ_ne_zero _)
  rw [surplus_closing h]
  omega

theorem falls_other (hopens : ¬b.opens t.lexeme) (hcloses : ¬b.closes t.lexeme) (depth : Nat) :
    b.Falls (depth + 1) (t :: ts) i ↔ ∃ j, i = j + 1 ∧ b.Falls (depth + 1) ts j := by
  refine falls_cons_iff (fun us => ?_) (Nat.succ_ne_zero _)
  rw [surplus_other hopens hcloses]

theorem falls_closing_one (h : b.closes t.lexeme) : b.Falls 1 (t :: ts) i ↔ i = 0 := by
  have hfirst : b.surplus ((t :: ts).take 1) + (1 : Nat) = 0 := by
    rw [List.take_succ_cons, List.take_zero, surplus_closing h]
    rfl
  constructor
  · intro hfalls
    by_contra hne
    exact hfalls.least 0 (Nat.pos_of_ne_zero hne) hfirst
  · rintro rfl
    exact ⟨Nat.succ_pos _, hfirst, fun j hj => absurd hj (Nat.not_lt_zero j)⟩

/-- The search for the end of a group counts what is open. -/
theorem group?_index_eq_some_iff (b : Bracket) (depth : Nat) (ts : List Token) (i : Nat) :
    (b.group? depth ts).map (·.inner.length) = some i ↔ b.Falls (depth + 1) ts i := by
  induction ts generalizing depth i with
  | nil =>
      constructor
      · intro h
        cases h
      · intro h
        exact absurd h.inside (Nat.not_lt_zero i)
  | cons t ts ih =>
      have hcons (inner : Nat) :
          ((b.group? inner ts).map (Group.cons t)).map (·.inner.length) = some i ↔
            ∃ j, i = j + 1 ∧ b.Falls (inner + 1) ts j := by
        simp only [← ih, Option.map_map, Option.map_eq_some_iff, Function.comp_apply, Group.cons,
          List.length_cons]
        grind
      unfold group?
      split
      · rename_i hopens
        rw [hcons, falls_opening hopens]
      · rename_i hopens
        split
        · rename_i hcloses
          cases depth with
          | zero =>
              rw [falls_closing_one hcloses]
              exact ⟨fun h => (Option.some.inj h).symm, fun h => congrArg some h.symm⟩
          | succ outer => rw [hcons, falls_closing hcloses]
        · rename_i hcloses
          rw [hcons, falls_other hopens hcloses]

/-- An index closes the bracket at `start` when the tokens after that bracket fall there. -/
theorem closesAt_iff {start : Nat} (h : ts[start]? = some t) (ht : b.opens t.lexeme) :
    b.ClosesAt ts start (start + 1 + i) ↔ b.Falls 1 (ts.drop (start + 1)) i := by
  have hsurplus (j : Nat) : b.surplus (fromTo ts start (start + 1 + j)) =
      b.surplus ((ts.drop (start + 1)).take (j + 1)) + (1 : Nat) := by
    have hslice : fromTo ts start (start + 1 + j) = t :: (ts.drop (start + 1)).take (j + 1) := by
      obtain ⟨hlt, rfl⟩ := List.getElem?_eq_some_iff.1 h
      have hlength : start + 1 + j + 1 - start = j + 2 := by omega
      rw [fromTo, List.drop_take, hlength, List.drop_eq_getElem_cons hlt, List.take_succ_cons]
    rw [hslice, surplus_opening ht]
    rfl
  constructor
  · rintro ⟨-, hinside, heven, hleast⟩
    refine ⟨?_, ?_, fun j hj => ?_⟩
    · rw [List.length_drop]
      omega
    · rwa [← hsurplus]
    · rw [← hsurplus]
      exact hleast _ (by omega) (by omega)
  · rintro ⟨hinside, heven, hleast⟩
    rw [List.length_drop] at hinside
    refine ⟨by omega, by omega, ?_, fun j hstart hj => ?_⟩
    · rwa [hsurplus]
    · obtain ⟨k, rfl⟩ := Nat.exists_eq_add_of_le (Nat.succ_le_of_lt hstart)
      rw [Nat.succ_eq_add_one, hsurplus]
      exact hleast k (by omega)

theorem exists_closesAt {start : Nat} (hstart : start < i) (hinside : i < ts.length)
    (heven : b.surplus (fromTo ts start i) = 0) : ∃ j, b.ClosesAt ts start j := by
  have hexists : ∃ j, start < j ∧ b.surplus (fromTo ts start j) = 0 := ⟨i, hstart, heven⟩
  have hfound := Nat.find_spec hexists
  have hle : Nat.find hexists ≤ i := Nat.find_min' hexists ⟨hstart, heven⟩
  exact ⟨Nat.find hexists,
    { later := hfound.1
      inside := Nat.lt_of_le_of_lt hle hinside
      even := hfound.2
      least := fun j hj hlt hj' => Nat.find_min hexists hlt ⟨hj, hj'⟩ }⟩

/-- A group is cut out at the closing bracket. -/
theorem exists_closesAt_of_group? {start : Nat} {g : Group} (h : ts[start]? = some t)
    (ht : b.opens t.lexeme) (hg : b.group? 0 (ts.drop (start + 1)) = some g) :
    ∃ i, b.ClosesAt ts start i ∧ ts[i]? = some g.close ∧
      g.inner = (ts.take i).drop (start + 1) ∧ g.rest = ts.drop (i + 1) := by
  have happend := group?_append hg
  have hfalls : b.Falls 1 (ts.drop (start + 1)) g.inner.length :=
    (group?_index_eq_some_iff b 0 _ _).1 (by rw [hg]; rfl)
  refine ⟨start + 1 + g.inner.length, (closesAt_iff h ht).2 hfalls, ?_, ?_, ?_⟩
  · rw [← List.getElem?_drop, happend]
    simp
  · rw [List.drop_take, happend, Nat.add_sub_cancel_left, List.take_left]
  · rw [Nat.add_assoc, ← List.drop_drop, happend]
    simp

theorem group?_eq_none_iff {start : Nat} (h : ts[start]? = some t) (ht : b.opens t.lexeme) :
    b.group? 0 (ts.drop (start + 1)) = none ↔
      ∀ i, start < i → i < ts.length → b.surplus (fromTo ts start i) ≠ 0 := by
  constructor
  · intro hnone i hstart hinside heven
    obtain ⟨j, hj⟩ := exists_closesAt hstart hinside heven
    obtain ⟨k, rfl⟩ := Nat.exists_eq_add_of_le (Nat.succ_le_of_lt hj.later)
    have hindex := (group?_index_eq_some_iff b 0 _ _).2 ((closesAt_iff h ht).1 hj)
    rw [hnone] at hindex
    cases hindex
  · intro hnever
    cases hg : b.group? 0 (ts.drop (start + 1)) with
    | none => rfl
    | some g =>
        obtain ⟨i, hi, _⟩ := exists_closesAt_of_group? h ht hg
        exact absurd hi.even (hnever i hi.later hi.inside)

end Bracket

/-! ### Parts -/

/-- The brackets of both kinds that the tokens open, less those that they close. -/
def bracketDepth (ts : List Token) : Int :=
  Bracket.paren.surplus ts + Bracket.brace.surplus ts

/-- The indices of the commas at depth zero, when the tokens stand at `depth`. -/
def topCommas (depth : Int) (ts : List Token) : List Nat :=
  (List.range ts.length).filter fun i =>
    ts[i]?.any (·.lexeme.isComma) && depth + bracketDepth (ts.take i) == 0

/-- Whether parts with single commas between them are the given tokens. -/
inductive Joined : List (List Token) → List Token → Prop where
  | single (part : List Token) : Joined [part] part
  | comma (part : List Token) {t : Token} {parts : List (List Token)} {ts : List Token}
      (ht : t.lexeme = .comma) (h : Joined parts ts) : Joined (part :: parts) (part ++ t :: ts)

/-- The indices of the commas between parts. -/
def cuts : List (List Token) → List Nat
  | part :: next :: parts => part.length :: (cuts (next :: parts)).map (part.length + 1 + ·)
  | _ => []

section Dividing

variable {t : Token} {ts : List Token} {depth : Int}

theorem bracketDepth_cons (depth : Int) (t : Token) (ts : List Token) :
    depth + bracketDepth (t :: ts) = t.lexeme.depthAfter depth + bracketDepth ts := by
  simp only [bracketDepth, Bracket.surplus, List.countP_cons]
  cases t.lexeme <;> simp [Bracket.opens, Bracket.closes, Lexeme.depthAfter] <;> omega

theorem topCommas_cons (depth : Int) (t : Token) (ts : List Token) :
    topCommas depth (t :: ts) =
      (if t.lexeme.isComma && depth == 0 then [0] else []) ++
        (topCommas (t.lexeme.depthAfter depth) ts).map (· + 1) := by
  have hrest : ((List.range ts.length).map Nat.succ).filter (fun i =>
        (t :: ts)[i]?.any (·.lexeme.isComma) && depth + bracketDepth ((t :: ts).take i) == 0) =
      (topCommas (t.lexeme.depthAfter depth) ts).map (· + 1) := by
    rw [List.filter_map, topCommas]
    congr 1
    refine List.filter_congr fun i _ => ?_
    simp only [Function.comp_apply, Nat.succ_eq_add_one, List.getElem?_cons_succ,
      List.take_succ_cons, bracketDepth_cons]
  have hstart : depth + bracketDepth ((t :: ts).take 0) = depth := Int.add_zero depth
  rw [topCommas, List.length_cons, List.range_succ_eq_map, List.filter_cons, hrest, hstart,
    List.getElem?_cons_zero, Option.any_some]
  by_cases hcut : t.lexeme.isComma && depth == 0
  · rw [if_pos hcut, if_pos hcut]
    rfl
  · rw [if_neg hcut, if_neg hcut]
    rfl

theorem cuts_cons_nil {parts : List (List Token)} (h : parts ≠ []) :
    cuts ([] :: parts) = 0 :: (cuts parts).map (· + 1) := by
  obtain ⟨next, parts, rfl⟩ := List.exists_cons_of_ne_nil h
  simp only [cuts, List.length_nil, Nat.zero_add, Nat.add_comm]

theorem cuts_consPart (t : Token) (parts : List (List Token)) :
    cuts (consPart t parts) = (cuts parts).map (· + 1) := by
  match parts with
  | [] => rfl
  | [part] => rfl
  | part :: next :: parts =>
      simp only [consPart, cuts, List.length_cons, List.map_cons, List.map_map]
      congr 1
      refine List.map_congr_left fun i _ => ?_
      simp only [Function.comp_apply]
      omega

theorem length_cuts {parts : List (List Token)} (h : parts ≠ []) :
    parts.length = (cuts parts).length + 1 := by
  match parts with
  | [] => exact absurd rfl h
  | [part] => rfl
  | part :: next :: parts =>
      have hrest := length_cuts (List.cons_ne_nil next parts)
      simp only [cuts, List.length_cons, List.length_map] at hrest ⊢
      omega

theorem Joined.consPart {parts : List (List Token)} (h : Joined parts ts) (t : Token) :
    Joined (consPart t parts) (t :: ts) := by
  cases h with
  | single => exact .single (t :: ts)
  | comma part ht hrest => exact .comma (t :: part) ht hrest

theorem joined_splitCommas (depth : Int) (ts : List Token) : Joined (splitCommas depth ts) ts := by
  induction ts generalizing depth with
  | nil => exact .single []
  | cons t ts ih =>
      unfold splitCommas
      split
      · rename_i hcut
        exact .comma [] (Lexeme.eq_comma (Bool.and_eq_true_iff.1 hcut).1) (ih depth)
      · exact (ih _).consPart t

/-- The cuts are made at the commas at depth zero. -/
theorem cuts_splitCommas (depth : Int) (ts : List Token) :
    cuts (splitCommas depth ts) = topCommas depth ts := by
  induction ts generalizing depth with
  | nil => rfl
  | cons t ts ih =>
      rw [topCommas_cons]
      unfold splitCommas
      split
      · rename_i hcut
        have hcomma := Lexeme.eq_comma (Bool.and_eq_true_iff.1 hcut).1
        rw [cuts_cons_nil (splitCommas_ne_nil depth ts), ih, hcomma]
        rfl
      · rw [cuts_consPart, ih, List.nil_append]

/-- No part has a comma at depth zero. All parts but the first begin at depth zero, because a
comma is no bracket. -/
theorem topCommas_of_splitCommas {first : List Token} {others : List (List Token)}
    (h : splitCommas depth ts = first :: others) :
    topCommas depth first = [] ∧ ∀ part ∈ others, topCommas 0 part = [] := by
  induction ts generalizing depth first others with
  | nil =>
      cases h
      exact ⟨rfl, List.forall_mem_nil _⟩
  | cons t ts ih =>
      unfold splitCommas at h
      split at h
      · rename_i hcut
        cases h
        obtain ⟨next, later, hnext⟩ := List.exists_cons_of_ne_nil (splitCommas_ne_nil depth ts)
        obtain ⟨hfirst, hothers⟩ := ih hnext
        obtain rfl : depth = 0 := by simpa using (Bool.and_eq_true_iff.1 hcut).2
        rw [hnext]
        exact ⟨rfl, List.forall_mem_cons.2 ⟨hfirst, hothers⟩⟩
      · rename_i hcut
        obtain ⟨part, parts, hpart⟩ :=
          List.exists_cons_of_ne_nil (splitCommas_ne_nil (t.lexeme.depthAfter depth) ts)
        rw [hpart] at h
        cases h
        obtain ⟨hfirst, hothers⟩ := ih hpart
        refine ⟨?_, hothers⟩
        rw [topCommas_cons, if_neg hcut, hfirst]
        rfl

theorem topCommas_part {part : List Token} (h : part ∈ splitCommas 0 ts) :
    topCommas 0 part = [] := by
  obtain ⟨first, others, hs⟩ := List.exists_cons_of_ne_nil (splitCommas_ne_nil 0 ts)
  rw [hs] at h
  obtain ⟨hfirst, hothers⟩ := topCommas_of_splitCommas hs
  rcases List.mem_cons.1 h with rfl | hpart
  · exact hfirst
  · exact hothers part hpart

end Dividing

/-- A group that is looked for after an opening bracket ends where that bracket closes, and it is
not found just when the bracket closes nowhere. The parts of a list of tokens are the tokens
again when single commas are put between them; they are cut at the commas at depth zero, one
part more than there are such commas, and none is left inside a part. Brackets need not be in
pairs. -/
theorem closes_and_divides (ts : List Token) :
    (∀ (b : Bracket) (start : Nat) (t : Token), ts[start]? = some t → b.opens t.lexeme →
      (∀ g, b.group? 0 (ts.drop (start + 1)) = some g →
        ∃ i, b.ClosesAt ts start i ∧ ts[i]? = some g.close ∧
          g.inner = (ts.take i).drop (start + 1) ∧ g.rest = ts.drop (i + 1)) ∧
      (b.group? 0 (ts.drop (start + 1)) = none ↔
        ∀ i, start < i → i < ts.length → b.surplus (fromTo ts start i) ≠ 0)) ∧
    Joined (splitCommas 0 ts) ts ∧
    (splitCommas 0 ts).length = (topCommas 0 ts).length + 1 ∧
    cuts (splitCommas 0 ts) = topCommas 0 ts ∧
    ∀ part ∈ splitCommas 0 ts, topCommas 0 part = [] := by
  have hlength := length_cuts (splitCommas_ne_nil 0 ts)
  rw [cuts_splitCommas] at hlength
  refine ⟨fun b start t h ht => ⟨fun g hg => ?_, ?_⟩, joined_splitCommas 0 ts, hlength,
    cuts_splitCommas 0 ts, fun part => topCommas_part⟩
  · exact Bracket.exists_closesAt_of_group? h ht hg
  · exact Bracket.group?_eq_none_iff h ht

/-- Brackets that are not in pairs, with a comma at depth zero and one below it. The last bracket
closes nowhere. -/
def unpaired : List Token :=
  [.openParen, .closeBrace, .comma, .openParen, .closeParen, .closeParen, .closeParen, .comma,
    .openBrace].map fun l => ⟨l, .start, 1⟩

theorem closes_and_divides_unpaired :
    (∃ i, Bracket.paren.ClosesAt unpaired 0 i ∧ unpaired[i]? = some ⟨.closeParen, .start, 1⟩) ∧
      (∀ i, 8 < i → i < unpaired.length → Bracket.brace.surplus (fromTo unpaired 8 i) ≠ 0) ∧
      Joined (splitCommas 0 unpaired) unpaired ∧ (splitCommas 0 unpaired).length = 2 := by
  obtain ⟨hgroups, hjoined, hlength, -⟩ := closes_and_divides unpaired
  refine ⟨?_, ?_, hjoined, hlength.trans (by decide)⟩
  · obtain ⟨i, hi, hclose, -⟩ := (hgroups .paren 0 _ rfl rfl).1 _ rfl
    exact ⟨i, hi, hclose⟩
  · exact (hgroups .brace 8 _ rfl rfl).2.1 rfl

end Scriptlet
