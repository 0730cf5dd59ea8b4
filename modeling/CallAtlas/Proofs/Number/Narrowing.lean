import CallAtlas.Json.Record
import CallAtlas.Proofs.Json.Finite
import CallAtlas.Proofs.Number.Comparison

/-! Numbers of a text as binary32 floats.

Rounding a finite float can overflow, and then gives an infinity. It never gives something that is not a number: the
significand carries into the exponent field, up to the bits of an infinity and no further (`isNaN_narrow`). -/

namespace CallAtlas.Binary32

set_option autoImplicit false

open Float.Model (Format UnpackedFloat)
open Float.Model.UnpackedFloat

/-! ## Bits -/

theorem isNaN_unpack {spec : Format} {b : BitVec spec.numBits}
    (h : unpackExponent b = -1#_ → unpackMantissa b = 0#_) : (unpack spec b).isNaN = false := by
  unfold unpack
  dsimp only
  split
  · next hones =>
    rw [if_pos (h hones)]
    rfl
  · split
    · split <;> rfl
    · rfl

theorem isNaN_unpack_pack {u : UnpackedFloat} (h : u.isNaN = false) :
    (unpack Format.binary32 (pack Format.binary32 u)).isNaN = false := by
  apply isNaN_unpack
  cases u with
  | notANumber => cases h
  | infinity s => exact fun _ => unpackMantissa_packComponents
  | zero s => exact fun _ => unpackMantissa_packComponents
  | finite s m e hm =>
    rw [pack]
    dsimp only
    split
    · exact fun _ => unpackMantissa_packComponents
    · next hfits =>
      change ¬ 256 ≤ (e + 127 + 23).toNat + 1 at hfits
      intro hones
      have hfield := congrArg BitVec.toNat hones
      split at hfield
      · rw [unpackExponent_packComponents] at hfield
        change (BitVec.ofNat 8 (e + 127 + 23).toNat).toNat = 255 at hfield
        rw [BitVec.toNat_ofNat] at hfield
        omega
      · rw [unpackExponent_packComponents] at hfield
        cases hfield

theorem toNat_unpackExponent {spec : Format} (b : BitVec spec.numBits) :
    (unpackExponent b).toNat = b.toNat / 2 ^ spec.mantissaBitsWithoutImplicit % 2 ^ spec.exponentBits := by
  have hwidth : spec.mantissaBitsWithoutImplicit + spec.exponentBits - 1 - spec.mantissaBitsWithoutImplicit + 1 =
      spec.exponentBits := by
    have := spec.he
    omega
  rw [unpackExponent, BitVec.toNat_cast, BitVec.extractLsb_toNat, Nat.shiftRight_eq_div_pow, hwidth]

theorem toNat_unpackMantissa {spec : Format} (b : BitVec spec.numBits) :
    (unpackMantissa b).toNat = b.toNat % 2 ^ spec.mantissaBitsWithoutImplicit := by
  have hwidth : spec.mantissaBitsWithoutImplicit - 1 - 0 + 1 = spec.mantissaBitsWithoutImplicit := by
    have := spec.hm
    omega
  rw [unpackMantissa, BitVec.toNat_cast, BitVec.extractLsb_toNat, Nat.shiftRight_zero, hwidth]

/-- Above the bits of an infinity lie those that are no numbers, whatever the sign. -/
theorem isNaN_ofBits {bits : UInt32} (h : bits.toNat % 2 ^ 31 ≤ 0x7f800000) : (Float32.ofBits bits).isNaN = false := by
  refine isNaN_unpack_pack (isNaN_unpack fun hones => BitVec.eq_of_toNat_eq ?_)
  have hexponent := congrArg BitVec.toNat hones
  rw [toNat_unpackExponent] at hexponent
  change bits.toNat / 2 ^ 23 % 2 ^ 8 = 255 at hexponent
  rw [toNat_unpackMantissa]
  change bits.toNat % 2 ^ 23 = 0
  omega

/-! ## Narrowing -/

theorem toNat_sign_or (sign : UInt32) (magnitude : UInt32) :
    ((sign <<< 31) ||| magnitude).toNat % 2 ^ 31 = magnitude.toNat % 2 ^ 31 := by
  rw [UInt32.toNat_or, Nat.or_mod_two_pow, UInt32.toNat_shiftLeft]
  have hsign : sign.toNat <<< ((31 : UInt32).toNat % 32) % 2 ^ 32 % 2 ^ 31 = 0 := by
    rw [Nat.shiftLeft_eq]
    change sign.toNat * 2 ^ 31 % 2 ^ 32 % 2 ^ 31 = 0
    omega
  rw [hsign, Nat.zero_or]

theorem isNaN_signed (sign : UInt32) {magnitude : UInt32} (h : magnitude.toNat ≤ 0x7f800000) :
    (Float32.ofBits ((sign <<< 31) ||| magnitude)).isNaN = false := by
  apply isNaN_ofBits
  rw [toNat_sign_or]
  omega

theorem roundShift_le (significand shift : UInt64) :
    (roundShift significand shift).toNat ≤ significand.toNat / 2 ^ (shift.toNat % 64) + 1 := by
  have hquotient : (significand >>> shift).toNat = significand.toNat / 2 ^ (shift.toNat % 64) := by
    rw [UInt64.toNat_shiftRight, Nat.shiftRight_eq_div_pow]
  unfold roundShift
  dsimp only
  split
  · rw [UInt64.toNat_add, hquotient]
    exact Nat.mod_le _ _
  · rw [hquotient]
    omega

/-- With a significand of full width, an exponent field below that of the infinities and a carry from rounding. -/
theorem toNat_rounded_le {exponent significand : UInt64} (hlow : 897 ≤ exponent) (hhigh : ¬ 1150 < exponent)
    (hsignificand : significand.toNat < 2 ^ 53) :
    (((exponent - 897) <<< 23) + roundShift significand 29).toNat ≤ 0x7f800000 := by
  have hround := roundShift_le significand 29
  change _ ≤ significand.toNat / 2 ^ 29 + 1 at hround
  have hexponent : (exponent - 897).toNat = exponent.toNat - 897 := UInt64.toNat_sub_of_le _ _ hlow
  have hshift : ((exponent - 897) <<< 23).toNat ≤ (exponent.toNat - 897) * 2 ^ 23 := by
    rw [UInt64.toNat_shiftLeft, hexponent, Nat.shiftLeft_eq]
    exact Nat.mod_le _ _
  have hle : exponent.toNat ≤ 1150 := UInt64.le_iff_toNat_le.mp (UInt64.not_lt.mp hhigh)
  rw [UInt64.toNat_add]
  refine (Nat.mod_le _ _).trans ?_
  omega

theorem toNat_roundShift_le {exponent significand : UInt64} (hlow : 872 ≤ exponent) (hhigh : ¬ 897 ≤ exponent)
    (hsignificand : significand.toNat < 2 ^ 53) :
    (roundShift significand (926 - exponent)).toNat ≤ 0x7f800000 := by
  have hround := roundShift_le significand (926 - exponent)
  have hle : 872 ≤ exponent.toNat := UInt64.le_iff_toNat_le.mp hlow
  have hlt : exponent.toNat < 897 := UInt64.lt_iff_toNat_lt.mp (UInt64.not_le.mp hhigh)
  have hshift : (926 - exponent).toNat = 926 - exponent.toNat :=
    UInt64.toNat_sub_of_le _ _ (UInt64.le_iff_toNat_le.mpr (by change exponent.toNat ≤ 926; omega))
  have hdiv : significand.toNat / 2 ^ ((926 - exponent).toNat % 64) ≤ significand.toNat / 2 ^ 30 :=
    Nat.div_le_div_left (Nat.pow_le_pow_right (by decide) (by omega)) (by decide)
  omega

theorem toNat_exponent (bits : UInt64) : ((bits >>> 52) &&& 0x7ff).toNat = bits.toNat / 2 ^ 52 % 2 ^ 11 := by
  rw [UInt64.toNat_and, UInt64.toNat_shiftRight, Nat.shiftRight_eq_div_pow]
  exact Nat.and_two_pow_sub_one_eq_mod _ 11

theorem toNat_significand_lt (bits : UInt64) : ((bits &&& 0xfffffffffffff) ||| 0x10000000000000).toNat < 2 ^ 53 := by
  rw [UInt64.toNat_or, UInt64.toNat_and]
  exact Nat.or_lt_two_pow (Nat.and_lt_two_pow _ (by decide)) (by decide)

theorem exponent_ne_of_isFinite {x : Float} (h : x.isFinite = true) : (x.toBits >>> 52) &&& 0x7ff ≠ 0x7ff := by
  intro hones
  have hfield := congrArg UInt64.toNat hones
  rw [toNat_exponent] at hfield
  change x.toBits.toNat / 2 ^ 52 % 2 ^ 11 = 2047 at hfield
  have hbits := (@toNat_unpackExponent Format.binary64 x.toBits.toBitVec).trans hfield
  have hunpacked : (unpack Format.binary64 x.toBits.toBitVec).isFinite = true := h
  rcases Binary64.unpack_cases x.toBits.toBitVec with ⟨-, hinf⟩ | ⟨hzero, -⟩ | ⟨hzero, -⟩ | ⟨hless, -⟩
  · rw [hinf] at hunpacked
    cases hunpacked
  · exact absurd (hzero.symm.trans hbits) (by decide)
  · exact absurd (hzero.symm.trans hbits) (by decide)
  · exact hless.ne hbits

theorem isNaN_narrow {x : Float} (h : x.isFinite = true) : (narrow x).isNaN = false := by
  have hsignificand := toNat_significand_lt x.toBits
  have hexponent := exponent_ne_of_isFinite h
  unfold narrow
  dsimp only
  generalize (x.toBits &&& 0xfffffffffffff) ||| 0x10000000000000 = significand at *
  generalize (x.toBits >>> 52) &&& 0x7ff = exponent at *
  generalize (x.toBits >>> 63).toUInt32 = sign
  rw [if_neg hexponent]
  split
  · exact isNaN_signed sign (by decide)
  next hlarge =>
  split
  · next hnormal => exact isNaN_signed sign ((Nat.mod_le _ _).trans (toNat_rounded_le hnormal hlarge hsignificand))
  next hsmall =>
  split
  · next hsubnormal =>
    exact isNaN_signed sign ((Nat.mod_le _ _).trans (toNat_roundShift_le hsubnormal hsmall hsignificand))
  · have hzero := isNaN_signed sign (show (0 : UInt32).toNat ≤ 0x7f800000 by decide)
    rwa [UInt32.or_zero] at hzero

/-! ## Whole numbers -/

theorem isNaN_roundWithAccuracy (spec : Format) (s : Sign) (m : ℕ) (e : ℤ) (accuracy : Accuracy) :
    (roundWithAccuracy spec s m e accuracy).isNaN = false := by
  unfold roundWithAccuracy shiftToTargetExponent shiftToExponent
  dsimp only
  split <;> rfl

theorem isNaN_mul (spec : Format) {u w : UnpackedFloat} (hu : u.isNaN = false) (hw : Binary64.OneOrMore w) :
    (UnpackedFloat.mul spec u w).isNaN = false := by
  obtain ⟨s, m, e, hm, rfl, -⟩ := hw.cases
  cases u with
  | notANumber => cases hu
  | infinity t => rfl
  | zero t => rfl
  | finite t n f hn => exact isNaN_roundWithAccuracy _ _ _ _ _

theorem isNaN_unpackedOfNat (spec : Format) (n : ℕ) : (UnpackedFloat.ofNat spec n).isNaN = false := by
  unfold UnpackedFloat.ofNat UnpackedFloat.ofInt UnpackedFloat.normalize
  split
  · exact isNaN_roundWithAccuracy _ _ _ _ _
  · rfl
  · exact isNaN_roundWithAccuracy _ _ _ _ _

theorem isNaN_ofScientific (spec : Format) (n : ℕ) : (UnpackedFloat.ofScientific spec n 0).isNaN = false := by
  unfold UnpackedFloat.ofScientific
  split
  · rfl
  split
  · rfl
  split
  · rfl
  · rw [if_pos le_rfl]
    exact isNaN_roundWithAccuracy _ _ _ _ _

theorem isNaN_ofNat (n : ℕ) : (Float32.ofNat n).isNaN = false := by
  change (Float32.ofScientific n false 0).isNaN = false
  unfold Float32.ofScientific
  split
  · -- A small number is multiplied by the power of ten with the exponent 0.
    have hone : Binary64.OneOrMore Float32.exactlyRepresentablePowersOfTen[0].toModel.unpack := by decide
    have hn := isNaN_unpack_pack (isNaN_unpackedOfNat Format.binary32 n.toUInt64.toNat)
    exact isNaN_unpack_pack (isNaN_mul _ hn hone)
  · exact isNaN_unpack_pack (isNaN_ofScientific _ n)

theorem isNaN_neg {x : Float32} (h : x.isNaN = false) : (-x).isNaN = false := by
  apply isNaN_unpack_pack
  have hx : x.toModel.unpack.isNaN = false := h
  cases hu : x.toModel.unpack with
  | notANumber =>
    rw [hu] at hx
    cases hx
  | infinity s => rfl
  | zero s => rfl
  | finite s m e hm => rfl

end CallAtlas.Binary32

namespace CallAtlas.Json

theorem isNaN_toFloat32 {number : Number} (h : number.toFloat.isFinite = true) : number.toFloat32.isNaN = false := by
  cases number with
  | natural n => exact Binary32.isNaN_ofNat n
  | negative n => exact Binary32.isNaN_neg (Binary32.isNaN_ofNat (n + 1))
  | real x => exact Binary32.isNaN_narrow h

end CallAtlas.Json
