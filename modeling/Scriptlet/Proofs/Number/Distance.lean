import Scriptlet.Number.Binary64

/-!
# The distance of two doubles

The difference of two doubles changes nothing but its sign when the two are exchanged, so its
absolute value is the same (`Binary64.abs_sub_comm`). Rounding looks at the magnitude only, and
so does the exponent and the mantissa under which a double is stored. Both are shown on unpacked
doubles, where a double is a sign, a mantissa and an exponent, or an infinity, a zero or no
number at all.
-/

namespace Scriptlet.Binary64

open Float.Model Float.Model.UnpackedFloat

variable {format : Format}

/-! ### Rounding -/

theorem abs_round (sign : Sign) (mantissa : Nat) (exponent : Int) :
    (UnpackedFloat.round format sign mantissa exponent).abs =
      UnpackedFloat.round format .positive mantissa exponent := by
  unfold UnpackedFloat.round roundWithAccuracy
  exact apply_dite UnpackedFloat.abs _ _ _

theorem abs_normalize_neg (mantissa exponent : Int) (sign : Sign) :
    (UnpackedFloat.normalize format (-mantissa) exponent sign).abs =
      (UnpackedFloat.normalize format mantissa exponent sign).abs := by
  unfold UnpackedFloat.normalize
  obtain hneg | rfl | hpos := Int.lt_trichotomy mantissa 0
  · have hleft : compare (-mantissa) 0 = .gt := Int.compare_eq_gt.2 (by omega)
    have hright : compare mantissa 0 = .lt := Int.compare_eq_lt.2 hneg
    rw [hleft, hright]
    dsimp only
    rw [abs_round, abs_round]
  · rfl
  · have hleft : compare (-mantissa) 0 = .lt := Int.compare_eq_lt.2 (by omega)
    have hright : compare mantissa 0 = .gt := Int.compare_eq_gt.2 hpos
    rw [hleft, hright]
    dsimp only
    rw [abs_round, abs_round, Int.neg_neg]

/-- The rounded difference has the same magnitude either way. -/
theorem abs_sub_unpacked (x y : UnpackedFloat) :
    (UnpackedFloat.sub format x y).abs = (UnpackedFloat.sub format y x).abs := by
  cases x with
  | notANumber => cases y <;> rfl
  | infinity sign =>
      cases y with
      | infinity sign' => cases sign <;> cases sign' <;> rfl
      | _ => rfl
  | zero sign =>
      cases y with
      | zero sign' => cases sign <;> cases sign' <;> rfl
      | _ => rfl
  | finite sign mantissa exponent hpos =>
      cases y with
      | finite sign' mantissa' exponent' hpos' =>
          dsimp only [UnpackedFloat.sub]
          rw [← abs_normalize_neg, Int.neg_sub, Int.min_comm]
      | _ => rfl

/-! ### Storing -/

theorem finite_congr {sign : Sign} {m m' : Nat} {e e' : Int} {hm : 0 < m} {hm' : 0 < m'}
    (hmantissa : m = m') (hexponent : e = e') : finite sign m e hm = finite sign m' e' hm' := by
  subst hmantissa hexponent
  rfl

/-- Bits that have the same exponent and mantissa store the same magnitude. -/
theorem abs_unpack_congr {b b' : BitVec format.numBits}
    (hexponent : unpackExponent b = unpackExponent b')
    (hmantissa : unpackMantissa b = unpackMantissa b') :
    (UnpackedFloat.unpack format b).abs = (UnpackedFloat.unpack format b').abs := by
  unfold UnpackedFloat.unpack
  dsimp only
  by_cases htop : unpackExponent b = -BitVec.ofNat _ 1
  · have htop' : unpackExponent b' = -BitVec.ofNat _ 1 := hexponent ▸ htop
    rw [if_pos htop, if_pos htop', hmantissa]
    by_cases hzero : unpackMantissa b' = BitVec.ofNat _ 0
    · rw [if_pos hzero, if_pos hzero]
      rfl
    · rw [if_neg hzero, if_neg hzero]
  · have htop' : ¬unpackExponent b' = -BitVec.ofNat _ 1 := hexponent ▸ htop
    rw [if_neg htop, if_neg htop']
    by_cases hbottom : unpackExponent b = BitVec.ofNat _ 0
    · have hbottom' : unpackExponent b' = BitVec.ofNat _ 0 := hexponent ▸ hbottom
      rw [if_pos hbottom, if_pos hbottom']
      by_cases hzero : unpackMantissa b = BitVec.ofNat _ 0
      · have hzero' : unpackMantissa b' = BitVec.ofNat _ 0 := hmantissa ▸ hzero
        rw [dif_pos hzero, dif_pos hzero']
        rfl
      · have hzero' : ¬unpackMantissa b' = BitVec.ofNat _ 0 := hmantissa ▸ hzero
        rw [dif_neg hzero, dif_neg hzero']
        exact finite_congr (by rw [hmantissa]) (by rw [hexponent])
    · have hbottom' : ¬unpackExponent b' = BitVec.ofNat _ 0 := hexponent ▸ hbottom
      rw [if_neg hbottom, if_neg hbottom']
      exact finite_congr (by rw [hmantissa]) (by rw [hexponent])

theorem abs_unpack_packComponents (sign : Sign) (exponent : BitVec format.exponentBits)
    (mantissa : BitVec format.mantissaBitsWithoutImplicit) :
    (UnpackedFloat.unpack format (packComponents format sign exponent mantissa)).abs =
      (UnpackedFloat.unpack format (packComponents format .positive exponent mantissa)).abs := by
  apply abs_unpack_congr
  · rw [unpackExponent_packComponents, unpackExponent_packComponents]
  · rw [unpackMantissa_packComponents, unpackMantissa_packComponents]

/-- The sign does not show in the bits of the exponent and the mantissa. -/
theorem exists_pack_finite (mantissa : Nat) (exponent : Int) (hpos : 0 < mantissa) :
    ∃ exponentBits mantissaBits, ∀ sign,
      UnpackedFloat.pack format (.finite sign mantissa exponent hpos) =
        packComponents format sign exponentBits mantissaBits := by
  unfold UnpackedFloat.pack
  dsimp only
  split
  · exact ⟨_, _, fun sign => rfl⟩
  · split <;> exact ⟨_, _, fun sign => rfl⟩

theorem abs_unpack_pack (x : UnpackedFloat) :
    (UnpackedFloat.unpack format (UnpackedFloat.pack format x)).abs =
      (UnpackedFloat.unpack format (UnpackedFloat.pack format x.abs)).abs := by
  cases x with
  | notANumber => rfl
  | infinity sign => exact abs_unpack_packComponents ..
  | zero sign => exact abs_unpack_packComponents ..
  | finite sign mantissa exponent hpos =>
      obtain ⟨exponentBits, mantissaBits, hpack⟩ := exists_pack_finite mantissa exponent hpos
      have habs : (UnpackedFloat.finite sign mantissa exponent hpos).abs =
          .finite .positive mantissa exponent hpos := rfl
      rw [habs, hpack, hpack]
      exact abs_unpack_packComponents ..

theorem abs_sub_comm (x y : Float) : (x - y).abs = (y - x).abs := by
  have hunpacked : (Float.Model.pack (x.toModel.unpack.sub .binary64 y.toModel.unpack)).unpack.abs =
      (Float.Model.pack (y.toModel.unpack.sub .binary64 x.toModel.unpack)).unpack.abs := by
    dsimp only [Float.Model.pack, Float.Model.unpack]
    rw [abs_unpack_pack, abs_sub_unpacked, ← abs_unpack_pack]
  exact congrArg (fun u => Float.ofModel (Float.Model.pack u)) hunpacked

end Scriptlet.Binary64
