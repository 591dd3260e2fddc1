import ApiGraph.Json.Numeral
import Mathlib

/-!
# Finite doubles

The opposite of a finite double is finite, and an integer of 64 bits is a finite double. Doubles are
packed into 64 bits after each operation, so the arguments go through their unpacked form, where a
finite number has an exponent below the highest one.
-/

namespace ApiGraph.Json

open Float.Model Float.Model.UnpackedFloat

/-! ## Packing -/

/-- What 64 bits unpack to: the highest exponent is that of infinity and NaN. -/
inductive Unpacks (b : BitVec Format.binary64.numBits) : UnpackedFloat → Prop
  | infinity (s : Sign) (exponent : unpackExponent b = -1#11) : Unpacks b (.infinity s)
  | notANumber (exponent : unpackExponent b = -1#11) : Unpacks b .notANumber
  | zero (s : Sign) (exponent : unpackExponent b ≠ -1#11) : Unpacks b (.zero s)
  | finite (s : Sign) (m : Nat) (e : Int) (hm : 0 < m) (exponent : unpackExponent b ≠ -1#11)
    (le : e ≤ 971) : Unpacks b (.finite s m e hm)

theorem unpacks (b : BitVec Format.binary64.numBits) :
    Unpacks b (UnpackedFloat.unpack Format.binary64 b) := by
  have hbias : (Format.binary64.exponentBias : Int) + Format.binary64.mantissaBitsWithoutImplicit =
      1075 := rfl
  have hlt := (unpackExponent b).isLt
  unfold UnpackedFloat.unpack
  simp only [hbias]
  split
  · rename_i hexponent
    split
    · exact .infinity _ hexponent
    · exact .notANumber hexponent
  · rename_i hexponent
    split
    · rename_i hzero
      split
      · exact .zero _ hexponent
      · refine .finite _ _ _ _ hexponent ?_
        rw [hzero]
        decide
    · refine .finite _ _ _ _ hexponent ?_
      have hne : (unpackExponent b).toNat ≠ 2047 := fun h => hexponent (BitVec.eq_of_toNat_eq h)
      change (unpackExponent b).toNat < 2048 at hlt
      omega

theorem Unpacks.isFinite_iff {b : BitVec Format.binary64.numBits} {u : UnpackedFloat}
    (h : Unpacks b u) : u.isFinite = true ↔ unpackExponent b ≠ -1#11 := by
  cases h with
  | infinity _ exponent => exact iff_of_false Bool.false_ne_true (not_not_intro exponent)
  | notANumber exponent => exact iff_of_false Bool.false_ne_true (not_not_intro exponent)
  | zero _ exponent => exact iff_of_true rfl exponent
  | finite _ _ _ _ exponent => exact iff_of_true rfl exponent

theorem Unpacks.exponent_le {b : BitVec Format.binary64.numBits} {s : Sign} {m : Nat} {e : Int}
    {hm : 0 < m} (h : Unpacks b (.finite s m e hm)) : e ≤ 971 := by
  cases h with
  | finite _ _ _ _ _ le => exact le

/-- The exponent of a packed number is the highest one just when the number is out of range. -/
theorem unpackExponent_pack_finite {s : Sign} {m : Nat} {e : Int} {hm : 0 < m} (he : e ≤ 971) :
    unpackExponent (UnpackedFloat.pack Format.binary64 (.finite s m e hm)) ≠ -1#11 := by
  have hbias : (e + Format.binary64.exponentBias +
      Format.binary64.mantissaBitsWithoutImplicit).toNat = (e + 1075).toNat := by
    change (e + (1023 : Nat) + (52 : Nat)).toNat = _
    omega
  rw [UnpackedFloat.pack]
  simp only [hbias]
  rw [if_neg (by omega)]
  split
  · rw [unpackExponent_packComponents]
    intro h
    have htoNat := congrArg BitVec.toNat h
    simp at htoNat
    omega
  · rw [unpackExponent_packComponents]
    decide

/-- A number whose exponent is below the highest one stays finite when it is packed. -/
theorem isFinite_pack_finite {s : Sign} {m : Nat} {e : Int} {hm : 0 < m} (he : e ≤ 971) :
    (Float.Model.pack (.finite s m e hm)).isFinite = true :=
  (unpacks (UnpackedFloat.pack _ (.finite s m e hm))).isFinite_iff.2
    (unpackExponent_pack_finite he)

/-- The opposite of a finite double is finite. -/
theorem isFinite_neg {x : Float} (h : x.isFinite = true) : (-x).isFinite = true := by
  change (Float.Model.pack x.toModel.unpack.neg).isFinite = true
  change x.toModel.unpack.isFinite = true at h
  have hunpacks : Unpacks _ x.toModel.unpack := unpacks _
  cases hx : x.toModel.unpack with
  | notANumber => rw [hx] at h; cases h
  | infinity s => rw [hx] at h; cases h
  | zero s => cases s <;> decide
  | finite s m e hm =>
    rw [hx] at hunpacks
    exact isFinite_pack_finite hunpacks.exponent_le

/-- Every double that is neither NaN nor infinity is finite. -/
theorem isFinite_iff {x : Float} :
    x.isFinite = true ↔ x.isNaN = false ∧ x.isInf = false := by
  change x.toModel.unpack.isFinite = true ↔
    x.toModel.unpack.isNaN = false ∧ x.toModel.unpack.isInf = false
  cases x.toModel.unpack <;>
    simp [UnpackedFloat.isFinite, UnpackedFloat.isNaN, UnpackedFloat.isInf]

/-! ## Integers beyond 64 bits with a sign -/

theorem mantissa_shiftRight_le (em : ExtendedMantissa) (n : Nat) :
    (em >>> n).mantissa ≤ em.mantissa := by
  change (Nat.repeat ExtendedMantissa.shiftRightOne n em).mantissa ≤ em.mantissa
  induction n with
  | zero => exact Nat.le_refl _
  | succ n ih => exact Nat.le_trans (Nat.div_le_self _ 2) ih

theorem roundedMantissa_le (em : ExtendedMantissa) : em.roundedMantissa ≤ em.mantissa + 1 := by
  unfold ExtendedMantissa.roundedMantissa Accuracy.roundToNearestEven
  split <;> omega

/-- Moving a mantissa of at most `k` bits to its exponent makes it no greater, and the exponent is
moved up by no more than `k`. -/
theorem shiftToTargetExponent_le {m k : Nat} {e : Int} {a : Accuracy} (hm : m < 2 ^ k)
    (hk : 0 < k) (he : -1074 ≤ e) :
    (shiftToTargetExponent Format.binary64 m e a).1.mantissa ≤ m ∧
      e ≤ (shiftToTargetExponent Format.binary64 m e a).2 ∧
      (shiftToTargetExponent Format.binary64 m e a).2 ≤ e + k := by
  have hlog : m.log2 < k := by
    by_cases hzero : m = 0
    · rw [hzero]
      exact hk
    · exact (Nat.log2_lt hzero).2 hm
  refine ⟨?_, ?_, ?_⟩
  · refine Nat.le_trans (mantissa_shiftRight_le _ _) ?_
    unfold ExtendedMantissa.ofMantissaAndAccuracy
    split <;> exact Nat.le_refl m
  · exact Int.le_add_of_nonneg_right (Int.natCast_nonneg _)
  · change e + ((max ((m.log2 : Int) + 1 + e - 53) (-1074) - e).toNat : Int) ≤ e + k
    omega

/-- Numbers of moderate size stay finite when they are rounded. -/
theorem isFinite_pack_round {s : Sign} {m : Nat} {e : Int} {a : Accuracy} (hm : m < 2 ^ 200)
    (he : -1074 ≤ e) (he' : e ≤ 0) :
    (Float.Model.pack (roundWithAccuracy Format.binary64 s m e a)).isFinite = true := by
  obtain ⟨hmantissa, hexponent, hexponent'⟩ := shiftToTargetExponent_le (a := a) hm (by decide) he
  have hrounded : (shiftToTargetExponent Format.binary64 m e a).1.roundedMantissa < 2 ^ 201 :=
    Nat.lt_of_le_of_lt (roundedMantissa_le _) (by omega)
  have hagain := (shiftToTargetExponent_le (a := .exact) hrounded (by decide)
    (Int.le_trans he hexponent)).2.2
  unfold roundWithAccuracy
  dsimp only
  split
  · cases s <;> decide
  · exact isFinite_pack_finite (by omega)

theorem ofScientific_natural {n : Nat} (hn : n ≠ 0) :
    UnpackedFloat.ofScientific Format.binary64 n 0 =
      roundWithAccuracy Format.binary64 .positive (n <<< 53 * 1) (-53) .exact := by
  have hexponent : ¬ (0 : Int) < -(2 ^ Format.binary64.exponentBits + (n.log2 : Int)) := by
    change ¬ (0 : Int) < -(2048 + (n.log2 : Int))
    omega
  unfold UnpackedFloat.ofScientific
  rw [dif_neg hn, if_neg (by decide), if_neg hexponent, if_pos (Int.le_refl 0)]
  rfl

/-- An integer of 64 bits is a finite double. -/
theorem isFinite_ofInt {n : Nat} (h : isSigned64 n = false) (hn : isUnsigned64 n = true) :
    (Float.ofInt n).isFinite = true := by
  have hlow : 2 ^ 63 ≤ n := by
    simp only [isSigned64, Bool.and_eq_false_iff, decide_eq_false_iff_not] at h
    omega
  have hhigh : n < 2 ^ 64 := by
    simpa [isUnsigned64] using hn
  have hbits : n <<< 53 * 1 < 2 ^ 200 := by
    rw [Nat.shiftLeft_eq]
    omega
  change (Float.ofScientific n false 0).isFinite = true
  unfold Float.ofScientific
  rw [dif_neg (by omega)]
  change (Float.Model.pack (UnpackedFloat.ofScientific Format.binary64 n 0)).isFinite = true
  rw [ofScientific_natural (by omega)]
  exact isFinite_pack_round hbits (by decide) (by decide)

end ApiGraph.Json
