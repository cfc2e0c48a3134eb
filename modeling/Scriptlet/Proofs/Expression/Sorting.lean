import Mathlib.Logic.Basic
import Scriptlet.Proofs.Expression.Grouping
import Scriptlet.Session.Evaluation

/-!
# What an expression means

The value of an expression is defined by sorting its terms. `Grouping.meaning` says
the same without sorting, in three passes over the grouping: the first reads the
literals and variables, the second runs the calls and the elements of arrays, and
the third applies the operators, each after its operands. The main statement is
`evalExpr_eq_meaning`: on well-formed infix the two agree, in the value or failure
and in the session they leave.

The step from one to the other is `sortTerms_terms`. It follows the grouping, not
the list of terms, because only the grouping says which operators the yard has
released at each point: after the terms of a grouping the operators on its right
edge still wait (`edge`), and all that comes before them has left (`early`).
-/

namespace Scriptlet

namespace Leaf

/-- The first pass over a leaf. A literal or variable is read now, and the action that
remains only returns it. -/
def read (call : Caller) : Leaf → Exec (Exec Operand)
  | literal v => return return ⟨v, none⟩
  | slot s => do
      let v ← Exec.read s
      return return ⟨v, some s⟩
  | .call function _ args pos => return do
      let sources ← evalArguments call args
      let frame ← call function sources (some pos)
      return ⟨frame.result, none⟩
  | array items => return do
      let vs ← evalItems call items
      return ⟨.array vs, none⟩

/-- The operand of a leaf when variables have the value they had in `start`. -/
def operand (call : Caller) (start : Session) : Leaf → Exec Operand
  | literal v => return ⟨v, none⟩
  | slot s => do
      let v ← Exec.readIn start s
      return ⟨v, some s⟩
  | .call function _ args pos => do
      let sources ← evalArguments call args
      let frame ← call function sources (some pos)
      return ⟨frame.result, none⟩
  | array items => do
      let vs ← evalItems call items
      return ⟨.array vs, none⟩

end Leaf

namespace Grouping

variable {α β γ : Type}

/-- The grouping with an action done at each leaf, from left to right. -/
def mapM (f : α → Exec β) : Grouping α → Exec (Grouping β)
  | leaf a => do
      let b ← f a
      return leaf b
  | paren opening closing g => do
      let g' ← g.mapM f
      return paren opening closing g'
  | node o pos l r => do
      let l' ← l.mapM f
      let r' ← r.mapM f
      return node o pos l' r'

/-- The grouping with a function applied to each leaf. -/
def map (f : α → β) : Grouping α → Grouping β
  | leaf a => leaf (f a)
  | paren opening closing g => paren opening closing (g.map f)
  | node o pos l r => node o pos (l.map f) (r.map f)

/-- Applies the operators of a grouping, each after its operands. The result of an
operator keeps the source of its left operand, and an assignment also writes the value
there, if there is a source. -/
def evaluate : Grouping Operand → Exec Operand
  | leaf o => return o
  | paren _ _ g => g.evaluate
  | node o pos l r => do
      let a ← l.evaluate
      let b ← r.evaluate
      match o.apply a.value b.value with
      | .error cause => Exec.fail (cause.located pos)
      | .ok v =>
          match o.isAssignment, a.source? with
          | true, some slot => Exec.write slot v
          | _, _ => pure ()
          return ⟨v, a.source?⟩

/-- The value of a grouping: read the literals and variables, then run the calls and the
elements of arrays, then apply the operators. -/
def meaning (call : Caller) (g : Grouping Leaf) : Exec Value := do
  let started ← g.mapM (Leaf.read call)
  let operands ← started.mapM id
  let result ← operands.evaluate
  return result.value

/-! ### The shape of a grouping -/

/-- The grouping without what its leaves hold. -/
def shape (g : Grouping α) : Grouping Unit :=
  g.map fun _ => ()

theorem binds_shape {p : Nat → Prop} (g : Grouping α) : g.shape.Binds p ↔ g.Binds p := by
  cases g <;> rfl

theorem grouped_shape (g : Grouping α) : g.shape.Grouped ↔ g.Grouped := by
  induction g with
  | leaf a => rfl
  | paren opening closing g ih => exact ih
  | node o pos l r ihl ihr =>
      exact and_congr ihl (and_congr ihr (and_congr (binds_shape l) (binds_shape r)))

theorem Binds.of_shape {p : Nat → Prop} {g : Grouping α} {h : Grouping β} (hg : g.Binds p)
    (hshape : h.shape = g.shape) : h.Binds p := by
  rw [← binds_shape, hshape, binds_shape]
  exact hg

theorem Grouped.of_shape {g : Grouping α} {h : Grouping β} (hg : g.Grouped)
    (hshape : h.shape = g.shape) : h.Grouped := by
  rw [← grouped_shape, hshape, grouped_shape]
  exact hg

/-- Doing an action at each leaf keeps the shape. -/
theorem shape_mapM {f : α → Exec β} {g : Grouping α} {h : Grouping β} {s t : Session}
    (hrun : g.mapM f s = .ok h t) : h.shape = g.shape := by
  induction g generalizing h s t with
  | leaf a =>
      simp only [mapM, bind, EStateM.bind] at hrun
      cases hf : f a s with
      | error e u => simp [hf] at hrun
      | ok b u =>
          rw [hf] at hrun
          cases hrun
          rfl
  | paren opening closing g ih =>
      simp only [mapM, bind, EStateM.bind] at hrun
      cases hg : g.mapM f s with
      | error e u => simp [hg] at hrun
      | ok g' u =>
          rw [hg] at hrun
          cases hrun
          exact congrArg (paren opening closing) (ih hg)
  | node o pos l r ihl ihr =>
      simp only [mapM, bind, EStateM.bind] at hrun
      cases hl : l.mapM f s with
      | error e u => simp [hl] at hrun
      | ok l' u =>
          simp only [hl] at hrun
          cases hr : r.mapM f u with
          | error e w => simp [hr] at hrun
          | ok r' w =>
              rw [hr] at hrun
              cases hrun
              exact congrArg₂ (node o pos) (ihl hl) (ihr hr)

/-- What follows on an action at each leaf may be changed where it agrees on all groupings
of the same shape. -/
theorem mapM_bind_congr {f : α → Exec β} {g : Grouping α} {k k' : Grouping β → Exec γ}
    (h : ∀ g' : Grouping β, g'.shape = g.shape → k g' = k' g') :
    (g.mapM f >>= k) = (g.mapM f >>= k') := by
  funext s
  simp only [bind, EStateM.bind]
  cases hrun : g.mapM f s with
  | error e t => rfl
  | ok g' t => exact congrFun (h g' (shape_mapM hrun)) t

theorem mapM_map (f : β → Exec γ) (h : α → β) (g : Grouping α) :
    (g.map h).mapM f = g.mapM fun a => f (h a) := by
  induction g with
  | leaf a => rfl
  | paren opening closing g ih => rw [map, mapM, mapM, ih]
  | node o pos l r ihl ihr => rw [map, mapM, mapM, ihl, ihr]

/-! ### Sorted entries -/

/-- The entries of a grouping, the last first. -/
def entries : Grouping Operand → List Entry
  | leaf o => [.operand o]
  | paren _ _ g => g.entries
  | node o pos l r => .op o pos :: (r.entries ++ l.entries)

/-- The operators on the right edge of a grouping, the innermost first. They still wait
when its last term has been sorted. -/
def edge : Grouping Operand → List Pending
  | node o pos _ r => r.edge ++ [.op o pos]
  | _ => []

/-- The entries that have left when the last term of a grouping has been sorted, the last
first. -/
def early : Grouping Operand → List Entry
  | leaf o => [.operand o]
  | paren _ _ g => g.entries
  | node _ _ l r => r.early ++ l.entries

end Grouping

namespace Yard

/-- The yard after the terms of a grouping. -/
def absorb (y : Yard) (g : Grouping Operand) : Yard :=
  ⟨g.early ++ y.output, g.edge ++ y.pending⟩

/-- Whether an operator of precedence `p` leaves all that waits where it is. -/
def Waits (p : Nat) : List Pending → Prop
  | .op o _ :: _ => o.precedence < p
  | _ => True

theorem release_of_waits {p : Nat} {pending : List Pending} (h : Waits p pending)
    (output : List Entry) : release p output pending = ⟨output, pending⟩ := by
  cases pending with
  | nil => rfl
  | cons w pending =>
      cases w with
      | paren pos => rfl
      | op o pos => exact if_neg (Nat.not_le_of_lt h)

theorem Waits.mono {p q : Nat} {pending : List Pending} (h : Waits p pending) (hpq : p ≤ q) :
    Waits q pending := by
  cases pending with
  | nil => trivial
  | cons w pending =>
      cases w with
      | paren pos => trivial
      | op o pos => exact Nat.lt_of_lt_of_le h hpq

/-- Releasing the right edge of a grouping completes its entries. -/
theorem release_edge {p : Nat} {g : Grouping Operand} (hg : g.Grouped) (hp : g.Binds (p ≤ ·))
    (output : List Entry) (pending : List Pending) :
    release p (g.early ++ output) (g.edge ++ pending) =
      release p (g.entries ++ output) pending := by
  induction g generalizing output pending with
  | leaf o => rfl
  | paren opening closing g _ => rfl
  | node o pos l r _ ihr =>
      have hr : r.Binds (p ≤ ·) := hg.binds_right hp
      rw [Grouping.early, Grouping.edge, Grouping.entries, List.append_assoc, List.append_assoc,
        ihr hg.2.1 hr, ← List.append_assoc r.entries]
      exact if_pos hp

theorem operator_absorb {y : Yard} {o : Operator} {g : Grouping Operand} (hg : g.Grouped)
    (ho : g.Binds (o.precedence ≤ ·)) (hy : Waits o.precedence y.pending) (pos : Position) :
    (y.absorb g).operator o pos = ⟨g.entries ++ y.output, .op o pos :: y.pending⟩ := by
  simp only [operator, absorb]
  rw [release_edge hg ho, release_of_waits hy]

theorem closeParen_absorb {y : Yard} {g : Grouping Operand} (hg : g.Grouped)
    (opening closing : Position) :
    ((y.openParen opening).absorb g).closeParen closing =
      .ok (y.absorb (.paren opening closing g)) := by
  simp only [closeParen, absorb, openParen]
  rw [release_edge hg (Grouping.binds_of_forall Nat.zero_le g)]
  rfl

theorem finish_absorb {g : Grouping Operand} (hg : g.Grouped) :
    (empty.absorb g).finish = .ok g.entries.reverse := by
  simp only [finish, absorb, empty]
  rw [release_edge hg (Grouping.binds_of_forall Nat.zero_le g), List.append_nil]
  rfl

end Yard

/-- Sorting the terms of a grouping does the actions of its leaves, from left to right, and
leaves the operators on its right edge waiting. -/
theorem sortTerms_terms (call : Caller) (start : Session) {g : Grouping Leaf} (hg : g.Grouped)
    {y : Yard} (hy : g.Binds (Yard.Waits · y.pending)) (rest : List Term) :
    sortTerms call start y (g.terms ++ rest) =
      (g.mapM (Leaf.operand call start) >>= fun os => sortTerms call start (y.absorb os) rest) := by
  induction g generalizing y rest with
  | leaf l =>
      cases l with
      | literal v => rfl
      | slot s => simp [Grouping.terms, Leaf.term, sortTerms, Grouping.mapM, Leaf.operand]; rfl
      | call function name args pos =>
          simp [Grouping.terms, Leaf.term, sortTerms, Grouping.mapM, Leaf.operand]; rfl
      | array items =>
          simp [Grouping.terms, Leaf.term, sortTerms, Grouping.mapM, Leaf.operand]; rfl
  | paren opening closing g ih =>
      have hgroup : g.Grouped := hg
      have hinner : g.Binds (Yard.Waits · (y.openParen opening).pending) :=
        Grouping.binds_of_forall (fun _ => trivial) g
      rw [Grouping.terms, List.cons_append, List.append_assoc, sortTerms, ih hgroup hinner,
        Grouping.mapM, bind_assoc]
      refine Grouping.mapM_bind_congr fun os hos => ?_
      rw [List.singleton_append, sortTerms, Yard.closeParen_absorb (hgroup.of_shape hos)]
      rfl
  | node o pos l r ihl ihr =>
      obtain ⟨hl, hr, hlo, hro⟩ := hg
      have hleft : l.Binds (Yard.Waits · y.pending) := hlo.mono fun n hn => Yard.Waits.mono hy hn
      rw [Grouping.terms, List.append_assoc, ihl hl hleft, Grouping.mapM, bind_assoc]
      refine Grouping.mapM_bind_congr fun ol hol => ?_
      have hright : r.Binds (Yard.Waits · (.op o pos :: y.pending)) := hro
      rw [List.cons_append, sortTerms,
        Yard.operator_absorb (hl.of_shape hol) (hlo.of_shape hol) hy, ihr hr hright, bind_assoc]
      refine Grouping.mapM_bind_congr fun or hor => ?_
      simp only [Yard.absorb, pure_bind, Grouping.early, Grouping.edge, List.append_assoc]
      rfl

/-! ### Applying the operators -/

theorem run_entries (g : Grouping Operand) (stack : List Operand) (rest : List Entry) :
    Entry.run stack (g.entries.reverse ++ rest) =
      (g.evaluate >>= fun o => Entry.run (o :: stack) rest) := by
  induction g generalizing stack rest with
  | leaf o => simp [Grouping.entries, Entry.run, Grouping.evaluate]
  | paren opening closing g ih => exact ih stack rest
  | node o pos l r ihl ihr =>
      rw [Grouping.entries, List.reverse_cons, List.reverse_append, List.append_assoc,
        List.append_assoc, ihl, Grouping.evaluate, bind_assoc]
      refine bind_congr fun a => ?_
      rw [ihr, bind_assoc]
      refine bind_congr fun b => ?_
      rw [List.singleton_append, Entry.run, Entry.applyTo]
      cases hv : o.apply a.value b.value with
      | error cause => rfl
      | ok v =>
          cases o.isAssignment with
          | false => simp
          | true => cases a.source? <;> simp

/-! ### Reading first -/

/-- Reads slots as they are in `s`, for no other purpose than to fail where one is not
there. -/
def probe (s : Session) (slots : List Slot) : Exec Unit :=
  slots.forM fun slot => discard (Exec.readIn s slot)

theorem probe_append (s : Session) (xs ys : List Slot) :
    probe s (xs ++ ys) = (probe s xs >>= fun _ => probe s ys) :=
  List.forM_append

/-- Probing changes nothing. -/
theorem probe_run (s t : Session) (slots : List Slot) :
    probe s slots t = .ok () t ∨ ∃ e, probe s slots t = .error e t := by
  induction slots with
  | nil => exact .inl rfl
  | cons slot slots ih =>
      have hcons : probe s (slot :: slots) =
          (discard (Exec.readIn s slot) >>= fun _ => probe s slots) := List.forM_cons
      rw [hcons, Exec.readIn]
      cases s.cell slot with
      | error p => exact .inr ⟨.panic p, rfl⟩
      | ok v => exact ih

theorem slots_append (ts us : List Term) :
    Term.slots (ts ++ us) = Term.slots ts ++ Term.slots us :=
  List.filterMap_append

/-- The first pass over a grouping fails where probing its slots fails, and otherwise
leaves the actions of its leaves to be done. -/
theorem mapM_read (call : Caller) (g : Grouping Leaf) (s : Session) :
    g.mapM (Leaf.read call) s =
      (probe s (Term.slots g.terms) >>= fun _ => pure (g.map (Leaf.operand call s))) s := by
  induction g with
  | leaf l =>
      cases l with
      | literal v => rfl
      | slot slot =>
          change ((Exec.readIn s slot >>= fun v => pure (pure ⟨v, some slot⟩)) >>= fun b =>
              pure (Grouping.leaf b)) s =
            (probe s [slot] >>= fun _ =>
              pure (Grouping.leaf (Leaf.operand call s (.slot slot)))) s
          cases hcell : s.cell slot with
          | error p =>
              have hread : Exec.readIn s slot = throw (.panic p) := by rw [Exec.readIn, hcell]
              rw [probe, List.forM_eq_forM, List.forM_cons, hread]
              rfl
          | ok v =>
              have hread : Exec.readIn s slot = pure v := by rw [Exec.readIn, hcell]
              rw [probe, List.forM_eq_forM, List.forM_cons, Leaf.operand, hread]
              rfl
      | call function name args pos => rfl
      | array items => rfl
  | paren opening closing g ih =>
      have hslots : Term.slots (Grouping.paren opening closing g).terms = Term.slots g.terms := by
        rw [Grouping.terms, ← List.singleton_append, slots_append, slots_append]
        exact List.append_nil _
      rw [hslots]
      simp only [Grouping.mapM, bind, EStateM.bind] at ih ⊢
      rw [ih]
      obtain hok | ⟨e, he⟩ := probe_run s s (Term.slots g.terms)
      · rw [hok]
        rfl
      · rw [he]
  | node o pos l r ihl ihr =>
      have hslots : Term.slots (Grouping.node o pos l r).terms =
          Term.slots l.terms ++ Term.slots r.terms := by
        rw [Grouping.terms, slots_append]
        rfl
      rw [hslots, probe_append]
      simp only [Grouping.mapM, bind, EStateM.bind] at ihl ihr ⊢
      rw [ihl]
      obtain hok | ⟨e, he⟩ := probe_run s s (Term.slots l.terms)
      · rw [hok]
        simp only [pure, EStateM.pure] at ihr ⊢
        rw [ihr]
        obtain hok' | ⟨e', he'⟩ := probe_run s s (Term.slots r.terms)
        · rw [hok']
          rfl
        · rw [he']
      · rw [he]

/-- The value of well-formed infix is that of its one grouping: literals and variables are
read, then calls and elements of arrays are run, then operators are applied. -/
theorem evalExpr_eq_meaning (call : Caller) (e : Expr) (h : Infix e.terms) :
    (∃! g : Grouping Leaf, g.Grouped ∧ g.terms = e.terms) ∧
      ∀ g : Grouping Leaf, g.Grouped → g.terms = e.terms →
        evalExpr call e = g.meaning call := by
  refine ⟨Grouping.existsUnique_grouping h, ?_⟩
  intro g hg hterms
  obtain ⟨terms, pos⟩ := e
  obtain rfl : g.terms = terms := hterms
  -- Sorting from an empty yard and applying the operators, whatever the reads were.
  have hsort (start : Session) :
      (sortTerms call start .empty g.terms >>= fun yard =>
        Exec.ofExcept yard.finish >>= Entry.evaluate pos) =
      (g.mapM (Leaf.operand call start) >>= fun os => os.evaluate >>= fun o =>
        pure o.value) := by
    have hwait : g.Binds (Yard.Waits · Yard.empty.pending) :=
      Grouping.binds_of_forall (fun _ => trivial) g
    rw [← List.append_nil g.terms, sortTerms_terms call start hg hwait, bind_assoc]
    refine Grouping.mapM_bind_congr fun os hos => ?_
    have hrun := run_entries os [] []
    rw [List.append_nil] at hrun
    rw [sortTerms, pure_bind, Yard.finish_absorb (hg.of_shape hos), Exec.ofExcept, pure_bind,
      Entry.evaluate, hrun, bind_assoc]
    rfl
  funext s
  have hstart : evalExpr call (.mk g.terms pos) s =
      (probe s (Term.slots g.terms) >>= fun _ => sortTerms call s .empty g.terms >>= fun yard =>
        Exec.ofExcept yard.finish >>= Entry.evaluate pos) s := by
    rw [evalExpr]
    rfl
  rw [hstart, hsort, Grouping.meaning]
  simp only [bind, EStateM.bind, mapM_read]
  obtain hok | ⟨e, he⟩ := probe_run s s (Term.slots g.terms)
  · rw [hok]
    simp only [pure, EStateM.pure, Grouping.mapM_map, id]
  · rw [he]

/-- The grouping of `x = y += (1 + 2) * 3`, a chain of assignments of which the second
writes to the source of the first. -/
def chainedAssignment : Grouping Leaf :=
  .node .addSet ⟨1, 7, 6⟩
    (.node .set ⟨1, 3, 2⟩ (.leaf (.slot (.global 0 "x"))) (.leaf (.slot (.global 1 "y"))))
    (.node .mul ⟨1, 18, 17⟩
      (.paren ⟨1, 10, 9⟩ ⟨1, 16, 15⟩
        (.node .add ⟨1, 13, 12⟩ (.leaf (.literal (.int 1))) (.leaf (.literal (.int 2)))))
      (.leaf (.literal (.int 3))))

theorem evalExpr_chainedAssignment :
    Infix chainedAssignment.terms ∧ chainedAssignment.Grouped ∧
      evalExpr (invoke 0 maxFrames) (.mk chainedAssignment.terms ⟨1, 1, 0⟩) =
        chainedAssignment.meaning (invoke 0 maxFrames) := by
  have hterms : Infix chainedAssignment.terms :=
    .binary .addSet ⟨1, 7, 6⟩
      (.binary .set ⟨1, 3, 2⟩ (.leaf (.slot (.global 0 "x"))) (.leaf (.slot (.global 1 "y"))))
      (.binary .mul ⟨1, 18, 17⟩
        (.paren ⟨1, 10, 9⟩ ⟨1, 16, 15⟩
          (.binary .add ⟨1, 13, 12⟩ (.leaf (.literal (.int 1))) (.leaf (.literal (.int 2)))))
        (.leaf (.literal (.int 3))))
  have hgrouped : chainedAssignment.Grouped := by
    simp [chainedAssignment, Grouping.Grouped, Grouping.Binds, Operator.precedence]
  exact ⟨hterms, hgrouped, (evalExpr_eq_meaning _ (.mk _ _) hterms).2 _ hgrouped rfl⟩

end Scriptlet
