import Mathlib

/-! Integers of 64 bits are finite as floats. A float that is built from one is zero or has a mantissa
and an exponent that are bounded, rounding keeps such bounds, and packing a float whose exponent is
far from the largest one does not make it infinite. -/

namespace Float.Model.UnpackedFloat

inductive Within (bits : Nat) (limit : Int) : UnpackedFloat → Prop where
  | zero (sign) : Within bits limit (.zero sign)
  | finite (sign) {mantissa exponent} (positive) : mantissa < 2 ^ bits → exponent ≤ limit →
      Within bits limit (.finite sign mantissa exponent positive)

variable {bits : Nat} {limit : Int} {float : UnpackedFloat}

theorem Within.isFinite (within : float.Within bits limit) : float.isFinite = true := by
  cases within <;> rfl

theorem Within.neg (within : float.Within bits limit) : float.neg.Within bits limit := by
  cases within with
  | zero sign => exact .zero _
  | finite sign positive narrow low => exact .finite _ positive narrow low

theorem Within.mono (within : float.Within bits limit) {larger : Int} (grows : limit ≤ larger) :
    float.Within bits larger := by
  cases within with
  | zero sign => exact .zero sign
  | finite sign positive narrow low => exact .finite sign positive narrow (low.trans grows)

theorem exists_exponent_pack (within : float.Within bits limit) (small : limit ≤ 900) :
    ∃ biased : Nat, biased < 2047 ∧ (biased : Int) ≤ max (limit + 1075) 0 ∧
      unpackExponent (pack Format.binary64 float) = BitVec.ofNat 11 biased := by
  cases within with
  | zero sign => exact ⟨0, by decide, by omega, unpackExponent_packComponents⟩
  | finite sign positive narrow low =>
      unfold pack
      dsimp only
      split
      · rename_i overflows
        simp only [Format.exponentBias] at overflows
        omega
      · split
        · refine ⟨_, ?_, ?_, unpackExponent_packComponents⟩ <;>
            simp only [Format.exponentBias] <;> omega
        · exact ⟨0, by decide, by omega, unpackExponent_packComponents⟩

theorem within_unpack {packed : BitVec 64} {biased : Nat} (small : biased < 2047)
    (stored : @unpackExponent Format.binary64 packed = BitVec.ofNat 11 biased) :
    (unpack Format.binary64 packed).Within 53 (max (biased - 1075) (-1074)) := by
  have same : (BitVec.ofNat 11 biased).toNat = biased := by
    rw [BitVec.toNat_ofNat]
    exact Nat.mod_eq_of_lt (by omega)
  unfold unpack
  dsimp only
  rw [stored]
  split
  · rename_i allOnes
    rw [allOnes] at same
    have : (-1#11).toNat = 2047 := rfl
    omega
  · split
    · rename_i allZeros
      split
      · exact .zero _
      · refine .finite _ _ (lt_trans (BitVec.isLt _) (by decide)) ?_
        simp only [Format.exponentBias, allZeros]
        simp
    · refine .finite _ _ (BitVec.isLt _) ?_
      simp only [Format.exponentBias, same]
      omega

theorem within_pack (within : float.Within bits limit) (small : limit ≤ 900)
    (large : -1074 ≤ limit) : (Float.Model.pack float).unpack.Within 53 limit := by
  obtain ⟨biased, bound, below, stored⟩ := exists_exponent_pack within small
  exact (within_unpack bound stored).mono (by omega)

theorem mantissa_shiftRight_le (extended : ExtendedMantissa) (count : Nat) :
    (extended >>> count).mantissa ≤ extended.mantissa := by
  change (count.repeat ExtendedMantissa.shiftRightOne extended).mantissa ≤ extended.mantissa
  induction count with
  | zero => exact le_rfl
  | succ count ih => exact (Nat.div_le_self _ _).trans ih

theorem shiftToTargetExponent_le {mantissa : Nat} {exponent : Int} (narrow : mantissa < 2 ^ bits)
    (low : exponent ≤ limit) (large : -1000 ≤ limit) :
    (shiftToTargetExponent Format.binary64 mantissa exponent .exact).1.mantissa ≤ mantissa ∧
      (shiftToTargetExponent Format.binary64 mantissa exponent .exact).2 ≤ limit + bits := by
  have log : mantissa.log2 ≤ bits := by
    by_cases zero : mantissa = 0
    · simp [zero]
    · exact ((Nat.log2_lt zero).mpr narrow).le
  refine ⟨mantissa_shiftRight_le _ _, ?_⟩
  simp only [shiftToTargetExponent, shiftToExponent, Format.targetExponent, totalExponent,
    Format.mantissaBits, Format.minExponent]
  omega

theorem roundedMantissa_le (extended : ExtendedMantissa) :
    extended.roundedMantissa ≤ extended.mantissa + 1 := by
  unfold ExtendedMantissa.roundedMantissa Accuracy.roundToNearestEven
  split <;> omega

theorem within_round (sign : Sign) {mantissa : Nat} {exponent : Int} (narrow : mantissa < 2 ^ bits)
    (low : exponent ≤ limit) (large : -1000 ≤ limit) :
    (roundWithAccuracy Format.binary64 sign mantissa exponent .exact).Within (bits + 1)
      (limit + bits + (bits + 1)) := by
  obtain ⟨shorter, exponentLow⟩ := shiftToTargetExponent_le narrow low large
  have rounded :=
    roundedMantissa_le (shiftToTargetExponent Format.binary64 mantissa exponent .exact).1
  have roundedNarrow : (shiftToTargetExponent Format.binary64 mantissa exponent
      .exact).1.roundedMantissa < 2 ^ (bits + 1) := by
    rw [pow_succ]
    omega
  obtain ⟨again, exponentAgain⟩ := shiftToTargetExponent_le roundedNarrow exponentLow (by omega)
  unfold roundWithAccuracy
  dsimp only
  split
  · exact .zero _
  · exact .finite _ _ (lt_of_le_of_lt again roundedNarrow) (by simpa using exponentAgain)

theorem decreaseExponent_le {mantissa : Nat} (narrow : mantissa < 2 ^ bits) :
    (decreaseExponent mantissa 0 (Format.binary64.targetExponent
        (totalExponent mantissa 0))).1 < 2 ^ (bits + 53) ∧
      (decreaseExponent mantissa 0 (Format.binary64.targetExponent
        (totalExponent mantissa 0))).2 ≤ 0 := by
  have shift : (0 - Format.binary64.targetExponent (totalExponent mantissa 0)).toNat ≤ 53 := by
    simp only [Format.targetExponent, totalExponent, Format.mantissaBits, Format.minExponent]
    omega
  constructor
  · simp only [decreaseExponent, Nat.shiftLeft_eq]
    calc
      _ ≤ mantissa * 2 ^ 53 := Nat.mul_le_mul_left _ (Nat.pow_le_pow_right (by decide) shift)
      _ < 2 ^ bits * 2 ^ 53 := Nat.mul_lt_mul_of_pos_right narrow (by decide)
      _ = 2 ^ (bits + 53) := (pow_add 2 bits 53).symm
  · simp only [decreaseExponent]
    omega

theorem within_ofNat {number : Nat} (bound : number < 2 ^ 64) :
    (ofNat Format.binary64 number).Within 118 235 := by
  unfold ofNat ofInt normalize
  split
  · rename_i negative
    rw [Int.compare_eq_lt] at negative
    omega
  · exact .zero _
  · obtain ⟨narrow, low⟩ := decreaseExponent_le bound
    exact within_round _ narrow low (by decide)

theorem Within.mul {other : UnpackedFloat} {otherBits : Nat} {otherLimit : Int}
    (within : float.Within bits limit) (otherWithin : other.Within otherBits otherLimit)
    (large : -1000 ≤ limit + otherLimit) :
    (mul Format.binary64 float other).Within (bits + otherBits + 1)
      (limit + otherLimit + (bits + otherBits : Nat) + ((bits + otherBits : Nat) + 1)) := by
  cases within with
  | zero sign => cases otherWithin <;> exact .zero _
  | finite sign positive narrow low =>
      cases otherWithin with
      | zero otherSign => exact .zero _
      | finite otherSign otherPositive otherNarrow otherLow =>
          refine within_round _ ?_ (Int.add_le_add low otherLow) large
          rw [pow_add]
          exact Nat.mul_lt_mul'' narrow otherNarrow

theorem within_ofScientific {number : Nat} (bound : number < 2 ^ 64) :
    (ofScientific Format.binary64 number 0).Within 122 190 := by
  unfold ofScientific
  split
  · exact .zero _
  · rename_i nonzero
    have narrow : number <<< Format.binary64.mantissaBits < 2 ^ 117 := by
      rw [Nat.shiftLeft_eq]
      exact (Nat.mul_lt_mul_of_pos_right bound (by decide)).trans_eq (by decide)
    rw [if_neg (by decide), if_neg (by simp), if_pos le_rfl]
    have power : 10 ^ (0 : Int).toNat < 2 ^ 4 := by decide
    exact Within.mul (.finite _ _ narrow (Int.le_refl (-53))) (.finite _ _ power (Int.le_refl 0))
      (by decide)

end Float.Model.UnpackedFloat

namespace Float

open Model UnpackedFloat

theorem within_one : (Float.ofBits 4607182418800017408).toModel.unpack.Within 53 (-52) := by
  unfold Float.ofBits
  exact @within_unpack _ 1023 (by decide) (by decide)

theorem within_ofNat {number : Nat} (bound : number < 2 ^ 64) :
    (Float.ofNat number).toModel.unpack.Within 53 450 := by
  change (Float.ofScientific number false 0).toModel.unpack.Within 53 450
  unfold Float.ofScientific
  split
  · have converted : (number.toUInt64.toFloat).toModel.unpack.Within 53 235 :=
      within_pack (UnpackedFloat.within_ofNat (UInt64.toNat_lt _)) (by decide) (by decide)
    have product := within_pack (converted.mul within_one (by decide)) (by decide) (by decide)
    exact product.mono (by decide)
  · have within := within_pack (within_ofScientific bound) (by decide) (by decide)
    exact within.mono (by decide)

theorem isFinite_ofInt {number : Int} (lower : -0x8000000000000000 ≤ number)
    (upper : number < 0x10000000000000000) : (Float.ofInt number).isFinite = true := by
  cases number with
  | ofNat number => exact (within_ofNat (Int.ofNat_lt.mp upper)).isFinite
  | negSucc number =>
      have natural : (Float.ofNat number.succ).toModel.unpack.Within 53 450 :=
        within_ofNat (by omega)
      exact (within_pack natural.neg (by decide) (by decide)).isFinite

end Float
