import Mathlib.Logic.ExistsUnique
import Scriptlet.Program.Syntax

/-!
# Grouping of operators

An expression is written as a list of terms, and what it means is a tree. A
`Grouping` is such a tree with leaves `α`; parentheses are kept as nodes of their
own, so that `Grouping.terms` writes it back as the terms it came from.

`Grouping.Grouped` is the rule by which operators group: an operator binds at
least as tightly as the one whose left operand it stands in, and tighter than the
one whose right operand it stands in, unless parentheses stand between. The main
statement is `existsUnique_grouping`: well-formed infix has exactly one grouping.
It exists because `graft` puts two groupings with an operator between them into
one, and it is unique because `ofTerms?` reads it back from its terms.
-/

namespace Scriptlet

/-- What stands between the operators of an expression. -/
inductive Leaf where
  | literal (v : Value)
  | slot (s : Slot)
  | call (function : Nat) (name : String) (args : List Argument) (pos : Position)
  | array (items : List Expr)

/-- The term of a leaf. -/
def Leaf.term : Leaf → Term
  | literal v => .literal v
  | slot s => .slot s
  | call function name args pos => .call function name args pos
  | array items => .array items

/-- Well-formed infix: leaves alternate with operators, and parentheses stand around
well-formed infix. -/
inductive Infix : List Term → Prop where
  | leaf (l : Leaf) : Infix [l.term]
  | paren (opening closing : Position) {ts : List Term} (h : Infix ts) :
      Infix (.openParen opening :: (ts ++ [.closeParen closing]))
  | binary (o : Operator) (pos : Position) {ts us : List Term} (ht : Infix ts) (hu : Infix us) :
      Infix (ts ++ .op o pos :: us)

/-- An expression as a tree. -/
inductive Grouping (α : Type) where
  | leaf (a : α)
  | paren (opening closing : Position) (inner : Grouping α)
  | node (o : Operator) (pos : Position) (left right : Grouping α)

namespace Grouping

variable {α β : Type}

/-- The terms of a grouping, from left to right. -/
def terms : Grouping Leaf → List Term
  | leaf l => [l.term]
  | paren opening closing g => .openParen opening :: (g.terms ++ [.closeParen closing])
  | node o pos l r => l.terms ++ .op o pos :: r.terms

/-- Whether the precedence of the root satisfies `p`. Parentheses and leaves have no
operator to show. -/
def Binds (p : Nat → Prop) : Grouping α → Prop
  | node o _ _ _ => p o.precedence
  | _ => True

/-- Whether operators group by precedence, and to the left where it is equal. -/
def Grouped : Grouping α → Prop
  | leaf _ => True
  | paren _ _ g => g.Grouped
  | node o _ l r =>
      l.Grouped ∧ r.Grouped ∧ l.Binds (o.precedence ≤ ·) ∧ r.Binds (o.precedence < ·)

theorem Binds.mono {p q : Nat → Prop} {g : Grouping α} (h : g.Binds p)
    (hpq : ∀ n, p n → q n) : g.Binds q := by
  cases g with
  | leaf a => trivial
  | paren opening closing g => trivial
  | node o pos l r => exact hpq _ h

theorem binds_of_forall {p : Nat → Prop} (h : ∀ n, p n) (g : Grouping α) : g.Binds p := by
  cases g with
  | leaf a => trivial
  | paren opening closing g => trivial
  | node o pos l r => exact h _

/-- Where an operator binds at least as tightly as `p`, so does its right operand. -/
theorem Grouped.binds_right {o : Operator} {pos : Position} {l r : Grouping α} {p : Nat}
    (h : (node o pos l r).Grouped) (hp : p ≤ o.precedence) : r.Binds (p ≤ ·) := by
  refine h.2.2.2.mono ?_
  intro n hn
  exact Nat.le_of_lt (Nat.lt_of_le_of_lt hp hn)

/-! ### One operand more -/

/-- Puts an operator and its right operand `p` behind a grouping. They go down the right
edge, past the operators that bind less tightly. -/
def insert : Grouping α → Operator → Position → Grouping α → Grouping α
  | node o' pos' l r, o, pos, p =>
      if o'.precedence < o.precedence then node o' pos' l (r.insert o pos p)
      else node o pos (node o' pos' l r) p
  | g, o, pos, p => node o pos g p

theorem binds_insert {q : Nat → Prop} {o : Operator} (pos : Position) (p : Grouping α)
    {g : Grouping α} (hg : g.Binds q) (ho : q o.precedence) : (g.insert o pos p).Binds q := by
  cases g with
  | leaf a => exact ho
  | paren opening closing g => exact ho
  | node o' pos' l r =>
      unfold insert
      split
      · exact hg
      · exact ho

/-- An operand without an exposed operator can be put behind every grouping. -/
theorem grouped_insert (o : Operator) (pos : Position) {p : Grouping α} (hp : p.Grouped)
    (hclosed : p.Binds (fun _ => False)) {g : Grouping α} (hg : g.Grouped) :
    (g.insert o pos p).Grouped := by
  have hright : p.Binds (o.precedence < ·) := hclosed.mono fun _ h => h.elim
  induction g with
  | leaf a => exact ⟨trivial, hp, trivial, hright⟩
  | paren opening closing g _ => exact ⟨hg, hp, trivial, hright⟩
  | node o' pos' l r _ ihr =>
      unfold insert
      split
      · rename_i hlt
        exact ⟨hg.1, ihr hg.2.1, hg.2.2.1, binds_insert pos p hg.2.2.2 hlt⟩
      · rename_i hle
        exact ⟨hg, hp, Nat.le_of_not_lt hle, hright⟩

theorem terms_insert (o : Operator) (pos : Position) (p g : Grouping Leaf) :
    (g.insert o pos p).terms = g.terms ++ .op o pos :: p.terms := by
  induction g with
  | leaf l => rfl
  | paren opening closing g _ => rfl
  | node o' pos' l r _ ihr =>
      unfold insert
      split
      · simp only [terms, ihr, List.append_assoc, List.cons_append]
      · simp only [terms, List.append_assoc, List.cons_append]

/-- Puts an operator and a whole grouping behind `g`, one operand after the other. -/
def graft : Grouping α → Operator → Position → Grouping α → Grouping α
  | g, o, pos, node o' pos' l r => (g.graft o pos l).graft o' pos' r
  | g, o, pos, p => g.insert o pos p

theorem grouped_graft (o : Operator) (pos : Position) {u g : Grouping α} (hu : u.Grouped)
    (hg : g.Grouped) : (g.graft o pos u).Grouped := by
  induction u generalizing o pos g with
  | leaf a => exact grouped_insert o pos hu trivial hg
  | paren opening closing u _ => exact grouped_insert o pos hu trivial hg
  | node o' pos' l r ihl ihr => exact ihr o' pos' hu.2.1 (ihl o pos hu.1 hg)

theorem terms_graft (o : Operator) (pos : Position) (u g : Grouping Leaf) :
    (g.graft o pos u).terms = g.terms ++ .op o pos :: u.terms := by
  induction u generalizing o pos g with
  | leaf l => exact terms_insert o pos _ g
  | paren opening closing u _ => exact terms_insert o pos _ g
  | node o' pos' l r ihl ihr =>
      simp only [graft, ihr, ihl, terms, List.append_assoc, List.cons_append]

theorem exists_grouping {ts : List Term} (h : Infix ts) :
    ∃ g : Grouping Leaf, g.Grouped ∧ g.terms = ts := by
  induction h with
  | leaf l => exact ⟨leaf l, trivial, rfl⟩
  | paren opening closing _ ih =>
      obtain ⟨g, hg, rfl⟩ := ih
      exact ⟨paren opening closing g, hg, rfl⟩
  | binary o pos _ _ iht ihu =>
      obtain ⟨g, hg, rfl⟩ := iht
      obtain ⟨u, hu, rfl⟩ := ihu
      exact ⟨g.graft o pos u, grouped_graft o pos hu hg, terms_graft o pos u g⟩

/-! ### Reading a grouping back -/

/-- What stands open to the left while terms are read. -/
inductive Open where
  | op (left : Grouping Leaf) (o : Operator) (pos : Position)
  | paren (pos : Position)

/-- Closes the open operators that bind at least as tightly as `p`, with `g` as the right
operand of the innermost. -/
def close (p : Nat) (g : Grouping Leaf) : List Open → Grouping Leaf × List Open
  | .op l o pos :: opens =>
      if p ≤ o.precedence then close p (node o pos l g) opens else (g, .op l o pos :: opens)
  | opens => (g, opens)

mutual

/-- The grouping of terms that go on with an operand. -/
def fromOperand (opens : List Open) : List Term → Option (Grouping Leaf)
  | .literal v :: ts => fromOperator (leaf (.literal v)) opens ts
  | .slot s :: ts => fromOperator (leaf (.slot s)) opens ts
  | .call function name args pos :: ts =>
      fromOperator (leaf (.call function name args pos)) opens ts
  | .array items :: ts => fromOperator (leaf (.array items)) opens ts
  | .openParen pos :: ts => fromOperand (.paren pos :: opens) ts
  | _ => none

/-- The grouping of terms that go on after the operand `g`. -/
def fromOperator (g : Grouping Leaf) (opens : List Open) : List Term → Option (Grouping Leaf)
  | [] => some (close 0 g opens).1
  | .op o pos :: ts =>
      let closed := close o.precedence g opens
      fromOperand (.op closed.1 o pos :: closed.2) ts
  | .closeParen pos :: ts =>
      match close 0 g opens with
      | (inner, .paren opening :: rest) => fromOperator (paren opening pos inner) rest ts
      | _ => none
  | _ => none

end

/-- The grouping that terms are read as. -/
def ofTerms? (ts : List Term) : Option (Grouping Leaf) :=
  fromOperand [] ts

/-- The last operand of a grouping. -/
def tip : Grouping Leaf → Grouping Leaf
  | node _ _ _ r => r.tip
  | g => g

/-- The operators that stand open before the last operand, the innermost first. -/
def spine : Grouping Leaf → List Open
  | node o pos l r => r.spine ++ [.op l o pos]
  | _ => []

/-- Whether the innermost open operator stays open before one of precedence `p`. -/
def StaysOpen (p : Nat) : List Open → Prop
  | .op _ o _ :: _ => o.precedence < p
  | _ => True

theorem close_of_staysOpen {p : Nat} {opens : List Open} (h : StaysOpen p opens)
    (g : Grouping Leaf) : close p g opens = (g, opens) := by
  cases opens with
  | nil => rfl
  | cons w opens =>
      cases w with
      | paren pos => rfl
      | op l o pos => exact if_neg (Nat.not_le_of_lt h)

/-- Closing the right edge of a grouping gives the grouping. -/
theorem close_spine {p : Nat} {g : Grouping Leaf} (hg : g.Grouped) (hp : g.Binds (p ≤ ·))
    (opens : List Open) : close p g.tip (g.spine ++ opens) = close p g opens := by
  induction g generalizing opens with
  | leaf l => rfl
  | paren opening closing g _ => rfl
  | node o pos l r _ ihr =>
      have hr : r.Binds (p ≤ ·) := hg.binds_right hp
      rw [tip, spine, List.append_assoc, ihr hg.2.1 hr]
      exact if_pos hp

/-- The terms of a grouping are read as its last operand behind its right edge. -/
theorem fromOperand_terms {g : Grouping Leaf} (hg : g.Grouped) {opens : List Open}
    (hopen : g.Binds (StaysOpen · opens)) (ts : List Term) :
    fromOperand opens (g.terms ++ ts) = fromOperator g.tip (g.spine ++ opens) ts := by
  induction g generalizing opens ts with
  | leaf l => cases l <;> rfl
  | paren opening closing g ih =>
      have hgroup : g.Grouped := hg
      have hinner : g.Binds (StaysOpen · (.paren opening :: opens)) :=
        binds_of_forall (fun _ => trivial) g
      have hclose : close 0 g.tip (g.spine ++ .paren opening :: opens) =
          (g, .paren opening :: opens) := by
        rw [close_spine hgroup (binds_of_forall Nat.zero_le g)]
        rfl
      rw [terms, List.cons_append, List.append_assoc, fromOperand, ih hg hinner,
        List.singleton_append, fromOperator, hclose]
      rfl
  | node o pos l r ihl ihr =>
      obtain ⟨hl, hr, hlo, hro⟩ := hg
      have hleft : l.Binds (StaysOpen · opens) := by
        refine hlo.mono fun n hn => ?_
        cases opens with
        | nil => trivial
        | cons w opens =>
            cases w with
            | paren pos => trivial
            | op l' o' pos' => exact Nat.lt_of_lt_of_le hopen hn
      have hright : r.Binds (StaysOpen · (.op l o pos :: opens)) := hro
      have hclose : close o.precedence l.tip (l.spine ++ opens) = (l, opens) := by
        rw [close_spine hl hlo, close_of_staysOpen hopen]
      rw [terms, List.append_assoc, ihl hl hleft, List.cons_append, fromOperator]
      simp only [hclose]
      rw [ihr hr hright, tip, spine, List.append_assoc]
      rfl

theorem ofTerms?_terms {g : Grouping Leaf} (hg : g.Grouped) : ofTerms? g.terms = some g := by
  have hopen : g.Binds (StaysOpen · []) := binds_of_forall (fun _ => trivial) g
  have hread := fromOperand_terms hg hopen []
  rw [List.append_nil, List.append_nil] at hread
  have hclose : close 0 g.tip g.spine = (g, []) := by
    have hspine := close_spine hg (binds_of_forall Nat.zero_le g) []
    rwa [List.append_nil] at hspine
  rw [ofTerms?, hread, fromOperator, hclose]

/-- Well-formed infix has exactly one grouping by precedence and to the left. -/
theorem existsUnique_grouping {ts : List Term} (h : Infix ts) :
    ∃! g : Grouping Leaf, g.Grouped ∧ g.terms = ts := by
  obtain ⟨g, hg, rfl⟩ := exists_grouping h
  refine ⟨g, ⟨hg, rfl⟩, ?_⟩
  rintro u ⟨hu, hterms⟩
  have hread := ofTerms?_terms hu
  rw [hterms, ofTerms?_terms hg] at hread
  exact (Option.some.inj hread).symm

end Grouping

end Scriptlet
