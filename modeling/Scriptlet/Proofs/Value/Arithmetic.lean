import Mathlib.Algebra.Ring.Int.Defs
import Scriptlet.Proofs.Session.Provided

/-!
# Arithmetic of integers

Sums, differences, products and powers of integers are the exact ones, reduced to sixty-four
bits with a sign (`Value.Wraps`). A division by zero fails and changes nothing. Every other
division gives a quotient and a remainder that go together (`Divided`), and this includes the
least integer over minus one, whose quotient wraps around to the least integer itself. The main
statement is `int_arithmetic_wraps`.
-/

namespace Scriptlet

/-- Whether a value is the integer that is left of `x` when it is reduced to sixty-four bits
with a sign. -/
def Value.Wraps (v : Value) (x : Int) : Prop :=
  ∃ n : Int64, v = .int n ∧ n.toInt = x.bmod Int64.size

/-- The quotient and the remainder of a division of `a` by `b`. The quotient is rounded toward
zero before it is reduced, so the remainder has the sign of `a`. -/
structure Divided (a b q r : Int64) : Prop where
  quotient : q.toInt = (a.toInt.tdiv b.toInt).bmod Int64.size
  restored : (q.toInt * b.toInt + r.toInt).bmod Int64.size = a.toInt
  smaller : r.toInt.natAbs < b.toInt.natAbs
  signed : r.toInt = 0 ∨ r.toInt.sign = a.toInt.sign

theorem divided_div_mod {a b : Int64} (hb : b ≠ 0) : Divided a b (a / b) (a % b) := by
  have hb' : b.toInt ≠ 0 := fun h => hb (Int64.toInt_inj.1 h)
  have hquotient : (a / b).toInt = (a.toInt.tdiv b.toInt).bmod Int64.size := Int64.toInt_div a b
  have hremainder : (a % b).toInt = a.toInt.tmod b.toInt := Int64.toInt_mod a b
  refine ⟨hquotient, ?_, ?_, ?_⟩
  · calc ((a / b).toInt * b.toInt + (a % b).toInt).bmod Int64.size
        = (a.toInt.tdiv b.toInt * b.toInt + a.toInt.tmod b.toInt).bmod Int64.size := by
          rw [hquotient, hremainder, ← Int.bmod_add_bmod, Int.bmod_mul_bmod, Int.bmod_add_bmod]
      _ = a.toInt.bmod Int64.size := by rw [Int.tdiv_mul_add_tmod]
      _ = a.toInt := Int64.toInt_bmod a
  · rw [hremainder, Int.natAbs_tmod]
    exact Nat.mod_lt _ (Int.natAbs_pos.2 hb')
  · rw [hremainder, Int.sign_tmod]
    split
    · next h => exact .inl (Int.tmod_eq_zero_of_dvd h)
    · exact .inr rfl

/-! ### Powers -/

namespace Library

/-- What the result is multiplied by in `n` rounds is the power. It may wrap around in every
round, and what is left in the end is the same. -/
theorem toInt_powLoop (base result : Int64) (n : Nat) :
    (powLoop base result n).toInt = (result.toInt * base.toInt ^ n).bmod Int64.size := by
  induction n generalizing result with
  | zero => rw [powLoop, pow_zero, mul_one, Int64.toInt_bmod]
  | succ n ih =>
      have hround : (result * base).toInt = (result.toInt * base.toInt).bmod Int64.size :=
        Int64.toInt_mul result base
      rw [powLoop, ih, hround, Int.bmod_mul_bmod, mul_assoc, ← pow_succ']

theorem toInt_intPow (base : Int64) (n : Nat) :
    (intPow base n).toInt = (base.toInt ^ n).bmod Int64.size := by
  rw [intPow, toInt_powLoop, Int64.toInt_one, one_mul]

/-- The native power of integers only gives a result. -/
theorem pow_ints {f : Frame} {a b : Int64} (hcount : 2 ≤ f.argCount) (ha : f.arg 0 = .ok (.int a))
    (hb : f.arg 1 = .ok (.int b)) (hnonneg : 0 ≤ b.toInt) :
    pow f = .ok (f.setResult (.int (intPow a b.toInt.toNat))) := by
  have hle : (0 : Int64) ≤ b := Int64.le_iff_toInt_le.2 hnonneg
  have hrequire : f.require 2 = .ok () := if_neg (Nat.not_lt.2 hcount)
  simp only [pow, hrequire, ha, hb, bind, Except.bind, if_pos hle, pure, Except.pure]

end Library

theorem Exec.call_pow {s : Session} (hpow : s.env.Provides "pow" Library.pow)
    (hroom : s.frames.length < maxFrames) (fuel : Nat) (a : Int64) {b : Int64}
    (hb : 0 ≤ b.toInt) :
    ∃ v t, call fuel "pow" [.int a, .int b] s = .ok (v, [.int a, .int b]) t ∧
      v.Wraps (a.toInt ^ b.toInt.toNat) := by
  have hrun (f : Function) : Library.pow (f.frame [.int a, .int b]) =
      .ok ((f.frame [.int a, .int b]).setResult (.int (Library.intPow a b.toInt.toNat))) :=
    Library.pow_ints (Nat.le_refl 2) rfl rfl hb
  obtain ⟨t, ht⟩ := call_of_setResult fuel hpow hroom hrun
  exact ⟨_, t, ht, _, rfl, Library.toInt_intPow a _⟩

/-! ### Division -/

theorem Value.div_int {b : Int64} (hb : b ≠ 0) (a : Int64) :
    div (.int a) (.int b) = .ok (.int (a / b)) := by
  simp [div, zeroDivides, hb, arith]

theorem Value.rem_int {b : Int64} (hb : b ≠ 0) (a : Int64) :
    rem (.int a) (.int b) = .ok (.int (a % b)) := by
  simp [rem, zeroDivides, hb, arith]

/-- An operator that divides by zero leaves all slots as they are, also the one that it would
have assigned to. -/
theorem Entry.applyTo_zero {o : Operator} (ho : o ∈ [.div, .divSet, .rem]) {left right : Operand}
    {a : Int64} (hleft : left.value = .int a) (hright : right.value = .int 0) (pos : Position)
    (s : Session) :
    ∃ failure, applyTo o pos left right s = .error failure s ∧
      failure.kind? = some .divisionByZero := by
  obtain ⟨cause, happly, hkind⟩ : ∃ cause, o.apply left.value right.value = .error cause ∧
      cause.kind = .divisionByZero := by
    rw [hleft, hright]
    simp only [List.mem_cons, List.not_mem_nil, or_false] at ho
    obtain rfl | rfl | rfl := ho <;> exact ⟨_, rfl, rfl⟩
  refine ⟨.error (cause.located pos), ?_, congrArg some hkind⟩
  rw [applyTo, happly]
  rfl

/-- Sums, differences, products and powers of integers are the exact ones reduced to sixty-four
bits. Division fails if and only if the divisor is zero, and then no slot changes. The power is
that of the native in every frame with such arguments, and that of a call by the host. -/
theorem int_arithmetic_wraps (a b : Int64) :
    ((Value.int a).add (.int b)).Wraps (a.toInt + b.toInt) ∧
    ((Value.int a).sub (.int b)).Wraps (a.toInt - b.toInt) ∧
    ((Value.int a).mul (.int b)).Wraps (a.toInt * b.toInt) ∧
    (b = 0 →
      (∃ cause, (Value.int a).div (.int b) = .error cause ∧ cause.kind = .divisionByZero) ∧
      (∃ cause, (Value.int a).rem (.int b) = .error cause ∧ cause.kind = .divisionByZero) ∧
      ∀ o ∈ [Operator.div, .divSet, .rem], ∀ left right : Operand, left.value = .int a →
        right.value = .int b → ∀ pos s, ∃ failure,
          Entry.applyTo o pos left right s = .error failure s ∧
            failure.kind? = some .divisionByZero) ∧
    (b ≠ 0 → ∃ q r, (Value.int a).div (.int b) = .ok (.int q) ∧
      (Value.int a).rem (.int b) = .ok (.int r) ∧ Divided a b q r) ∧
    (0 ≤ b.toInt →
      (∀ f : Frame, 2 ≤ f.argCount → f.arg 0 = .ok (.int a) → f.arg 1 = .ok (.int b) →
        ∃ v, Library.pow f = .ok (f.setResult v) ∧ v.Wraps (a.toInt ^ b.toInt.toNat)) ∧
      ∀ s : Session, s.env.Provides "pow" Library.pow → s.frames.length < maxFrames → ∀ fuel,
        ∃ v t, Exec.call fuel "pow" [.int a, .int b] s = .ok (v, [.int a, .int b]) t ∧
          v.Wraps (a.toInt ^ b.toInt.toNat)) := by
  refine ⟨⟨_, rfl, Int64.toInt_add a b⟩, ⟨_, rfl, Int64.toInt_sub a b⟩,
    ⟨_, rfl, Int64.toInt_mul a b⟩, ?_, fun hb => ?_, fun hb => ⟨?_, ?_⟩⟩
  · rintro rfl
    exact ⟨⟨_, rfl, rfl⟩, ⟨_, rfl, rfl⟩, fun o ho left right hleft hright =>
      Entry.applyTo_zero ho hleft hright⟩
  · exact ⟨_, _, Value.div_int hb a, Value.rem_int hb a, divided_div_mod hb⟩
  · intro f hcount hbase hexponent
    exact ⟨_, Library.pow_ints hcount hbase hexponent hb, _, rfl, Library.toInt_intPow a _⟩
  · intro s hpow hroom fuel
    exact Exec.call_pow hpow hroom fuel a hb

theorem int_arithmetic_wraps_least :
    (∃ q r, (Value.int Int64.minValue).div (.int (-1)) = .ok (.int q) ∧
      (Value.int Int64.minValue).rem (.int (-1)) = .ok (.int r) ∧
        Divided Int64.minValue (-1) q r) ∧
    (∃ failure, Entry.applyTo .divSet .start ⟨.int 7, none⟩ ⟨.int 0, none⟩ Session.empty =
      .error failure Session.empty ∧ failure.kind? = some .divisionByZero) ∧
    ∃ v t, Exec.call 0 "pow" [.int 3, .int 41] Session.empty.withLibrary =
      .ok (v, [.int 3, .int 41]) t ∧ v.Wraps (3 ^ 41) := by
  have hprovides : Session.empty.withLibrary.env.Provides "pow" Library.pow :=
    Session.empty.provides_withLibrary (f := ⟨"pow", ["base", "exp"], Library.pow⟩)
      (by simp [Library.functions, Library.math])
  obtain ⟨-, -, -, -, hleast, -⟩ := int_arithmetic_wraps Int64.minValue (-1)
  obtain ⟨-, -, -, hzero, -⟩ := int_arithmetic_wraps 7 0
  obtain ⟨-, -, -, -, -, hpow⟩ := int_arithmetic_wraps 3 41
  exact ⟨hleast (by decide), (hzero rfl).2.2 .divSet (by decide) _ _ rfl rfl _ _,
    (hpow (by decide)).2 _ hprovides (by decide) 0⟩

end Scriptlet
