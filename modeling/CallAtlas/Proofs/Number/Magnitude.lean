import Mathlib

/-! Magnitudes of binary64 floats.

`Within k x` says that `x` is finite and below `2 ^ k`. Rounding, conversion of whole numbers, products and quotients by
what is at least 1 raise the bound by little, so that values which start out small stay finite. -/

namespace CallAtlas.Binary64

set_option autoImplicit false

open Float.Model (Format UnpackedFloat totalExponent)
open Float.Model.UnpackedFloat

/-! ## Leading bits -/

theorem log2_div_pow {m n : ℕ} (h : m / 2 ^ n ≠ 0) : (m / 2 ^ n).log2 + n = m.log2 := by
  have hle : 2 ^ n ≤ m := (Nat.div_ne_zero_iff.mp h).2
  have hm : m ≠ 0 := (Nat.two_pow_pos n).trans_le hle |>.ne'
  have hn : n ≤ m.log2 := (Nat.le_log2 hm).mpr hle
  rw [Nat.log2_eq_log_two, Nat.log_div_base_pow, ← Nat.log2_eq_log_two, Nat.sub_add_cancel hn]

theorem div_pow_ne_zero {m n : ℕ} (hm : m ≠ 0) (hn : n ≤ m.log2) : m / 2 ^ n ≠ 0 := by
  have hpow : 2 ^ n ≤ m := (Nat.pow_le_pow_right (by decide) hn).trans (Nat.log2_self_le hm)
  exact (Nat.div_pos hpow (by positivity)).ne'

theorem log2_mono {m n : ℕ} (h : m ≤ n) : m.log2 ≤ n.log2 := by
  rw [Nat.log2_eq_log_two, Nat.log2_eq_log_two]
  exact Nat.log_mono_right h

theorem log2_le_of_lt {m n : ℕ} (h : m < 2 ^ (n + 1)) : m.log2 ≤ n := by
  by_cases hm : m = 0
  · simp [hm]
  · exact Nat.lt_succ_iff.mp ((Nat.log2_lt hm).mpr h)

theorem log2_le_of_le_succ {m n : ℕ} (h : m ≤ n + 1) : m.log2 ≤ n.log2 + 1 := by
  have hn : n < 2 ^ (n.log2 + 1) := Nat.lt_log2_self
  have hpow : 2 ^ (n.log2 + 1 + 1) = 2 ^ (n.log2 + 1) * 2 := pow_succ _ _
  exact log2_le_of_lt (by omega)

theorem log2_mul_le (m n : ℕ) : (m * n).log2 ≤ m.log2 + n.log2 + 1 := by
  apply log2_le_of_lt
  calc m * n < 2 ^ (m.log2 + 1) * 2 ^ (n.log2 + 1) :=
        Nat.mul_lt_mul'' Nat.lt_log2_self Nat.lt_log2_self
    _ = 2 ^ (m.log2 + n.log2 + 1 + 1) := by rw [← pow_add]; congr 1; omega

theorem log2_shiftLeft {m : ℕ} (hm : m ≠ 0) (n : ℕ) : (m <<< n).log2 = m.log2 + n := by
  have hdiv : (m <<< n) / 2 ^ n = m := by
    rw [Nat.shiftLeft_eq, Nat.mul_div_cancel _ (Nat.two_pow_pos n)]
  have h := log2_div_pow (hdiv.symm ▸ hm : (m <<< n) / 2 ^ n ≠ 0)
  rw [hdiv] at h
  exact h.symm

theorem log2_div_add_le {m n : ℕ} (h : m / n ≠ 0) : (m / n).log2 + n.log2 ≤ m.log2 := by
  have hn : n ≠ 0 := by
    rintro rfl
    exact h (Nat.div_zero m)
  have hle : 2 ^ ((m / n).log2 + n.log2) ≤ m := by
    calc 2 ^ ((m / n).log2 + n.log2) = 2 ^ (m / n).log2 * 2 ^ n.log2 := pow_add _ _ _
      _ ≤ m / n * n := Nat.mul_le_mul (Nat.log2_self_le h) (Nat.log2_self_le hn)
      _ ≤ m := Nat.div_mul_le_self m n
  have hm : m ≠ 0 := by
    rintro rfl
    exact h (Nat.zero_div n)
  exact (Nat.le_log2 hm).mpr hle

/-! ## Rounding -/

/-- A finite float below `2 ^ k` in magnitude. -/
def Within (k : ℤ) : UnpackedFloat → Prop
  | .zero _ => True
  | .finite _ m e _ => totalExponent m e ≤ k
  | _ => False

instance (k : ℤ) : DecidablePred (Within k)
  | .zero _ => isTrue trivial
  | .finite _ m e _ => inferInstanceAs (Decidable (totalExponent m e ≤ k))
  | .infinity _ => isFalse id
  | .notANumber => isFalse id

theorem Within.cases {k : ℤ} {u : UnpackedFloat} (h : Within k u) :
    (∃ s, u = .zero s) ∨ ∃ s m e hm, u = .finite s m e hm ∧ totalExponent m e ≤ k := by
  cases u with
  | zero s => exact Or.inl ⟨s, rfl⟩
  | finite s m e hm => exact Or.inr ⟨s, m, e, hm, rfl, h⟩
  | infinity s => exact h.elim
  | notANumber => exact h.elim

theorem Within.isFinite {k : ℤ} {u : UnpackedFloat} (h : Within k u) : u.isFinite = true := by
  rcases h.cases with ⟨s, rfl⟩ | ⟨s, m, e, hm, rfl, -⟩
  · rfl
  · rfl

theorem Within.mono {k l : ℤ} {u : UnpackedFloat} (h : Within k u) (hkl : k ≤ l) : Within l u := by
  rcases h.cases with ⟨s, rfl⟩ | ⟨s, m, e, hm, rfl, htotal⟩
  · trivial
  · exact htotal.trans hkl

theorem mantissa_shiftRight (em : ExtendedMantissa) (n : ℕ) : (em >>> n).mantissa = em.mantissa / 2 ^ n := by
  change (n.repeat ExtendedMantissa.shiftRightOne em).mantissa = em.mantissa / 2 ^ n
  induction n with
  | zero => simp [Nat.repeat]
  | succ n ih =>
    rw [Nat.repeat, pow_succ, ← Nat.div_div_eq_div_mul, ← ih]
    rfl

theorem mantissa_ofMantissaAndAccuracy (m : ℕ) (accuracy : Accuracy) :
    (ExtendedMantissa.ofMantissaAndAccuracy m accuracy).mantissa = m := by
  unfold ExtendedMantissa.ofMantissaAndAccuracy
  split <;> rfl

theorem roundedMantissa_bounds (em : ExtendedMantissa) :
    em.mantissa ≤ em.roundedMantissa ∧ em.roundedMantissa ≤ em.mantissa + 1 := by
  unfold ExtendedMantissa.roundedMantissa Accuracy.roundToNearestEven
  split <;> omega

/-- Rounding shifts a significand to its place, rounds it up or down, and shifts once more if that has carried. -/
theorem roundWithAccuracy_cases (s : Sign) (m : ℕ) (e : ℤ) (accuracy : Accuracy) :
    ∃ shift r shift' : ℕ, shift = (max (totalExponent m e - 53) (-1074) - e).toNat ∧
      (m / 2 ^ shift ≤ r ∧ r ≤ m / 2 ^ shift + 1) ∧
      shift' = (max (totalExponent r (e + shift) - 53) (-1074) - (e + shift)).toNat ∧
      ((r / 2 ^ shift' = 0 ∧ roundWithAccuracy Format.binary64 s m e accuracy = .zero s) ∨
        ∃ hm, roundWithAccuracy Format.binary64 s m e accuracy =
          .finite s (r / 2 ^ shift') (e + shift + shift') hm) := by
  have hbounds := roundedMantissa_bounds (ExtendedMantissa.ofMantissaAndAccuracy m accuracy >>>
    (max (totalExponent m e - 53) (-1074) - e).toNat)
  rw [mantissa_shiftRight, mantissa_ofMantissaAndAccuracy] at hbounds
  refine ⟨_, _, _, rfl, hbounds, rfl, ?_⟩
  unfold roundWithAccuracy shiftToTargetExponent shiftToExponent
  simp only [mantissa_shiftRight, mantissa_ofMantissaAndAccuracy]
  split
  · next hzero => exact Or.inl ⟨hzero, rfl⟩
  · next hne => exact Or.inr ⟨Nat.pos_of_ne_zero hne, rfl⟩

/-- Shifted to the right and rounded up, a significand gains one bit at most. -/
theorem totalExponent_rounded_le {k : ℤ} {m r shift : ℕ} {e : ℤ} (h : totalExponent m e ≤ k) (hshift : e + shift ≤ k)
    (hr : r ≤ m / 2 ^ shift + 1) : totalExponent r (e + shift) ≤ k + 1 := by
  unfold totalExponent at h ⊢
  have hlog := log2_le_of_le_succ hr
  by_cases hzero : m / 2 ^ shift = 0
  · have hone : r.log2 ≤ 0 := log2_le_of_lt (by rw [hzero] at hr; omega)
    omega
  · have hdiv := log2_div_pow hzero
    omega

theorem roundWithAccuracy_within {k : ℤ} (hk : 0 ≤ k) (s : Sign) (m : ℕ) (e : ℤ) (accuracy : Accuracy)
    (h : totalExponent m e ≤ k) : Within (k + 1) (roundWithAccuracy Format.binary64 s m e accuracy) := by
  obtain ⟨shift, r, shift', hshift, ⟨-, hr⟩, -, ⟨-, hzero⟩ | ⟨hpos, hfinite⟩⟩ := roundWithAccuracy_cases s m e accuracy
  · rw [hzero]
    trivial
  have hle : e ≤ k := by
    unfold totalExponent at h
    omega
  have hrounded := totalExponent_rounded_le h (by omega : e + shift ≤ k) hr
  -- The second shift loses no bits that count.
  have hlog := log2_div_pow hpos.ne'
  rw [hfinite]
  unfold Within
  unfold totalExponent at hrounded ⊢
  omega

/-! ## Packing -/

/-- What stands in the exponent field of a float: all ones if it is not finite, 0 if it is too small for a significand
of full width, and otherwise the exponent of such a significand. -/
theorem unpack_cases (b : BitVec Format.binary64.numBits) :
    ((unpackExponent b).toNat = 2047 ∧ (unpack Format.binary64 b).isFinite = false) ∨
    ((unpackExponent b).toNat = 0 ∧ ∃ s, unpack Format.binary64 b = .zero s) ∨
    ((unpackExponent b).toNat = 0 ∧ ∃ s m hm, unpack Format.binary64 b = .finite s m (-1074) hm ∧ m.log2 < 52) ∨
    ((unpackExponent b).toNat < 2047 ∧ ∃ s m hm,
      unpack Format.binary64 b = .finite s m ((unpackExponent b).toNat - 1075) hm ∧ m.log2 = 52) := by
  have hfield : (unpackExponent b).toNat < 2048 := (unpackExponent b).isLt
  have hm : (unpackMantissa b).toNat < 2 ^ 52 := (unpackMantissa b).isLt
  unfold unpack
  dsimp only
  split
  · next hones =>
    left
    refine ⟨congrArg BitVec.toNat hones, ?_⟩
    split <;> rfl
  right
  next hfinite =>
  have hones : (unpackExponent b).toNat ≠ 2047 := fun hones => hfinite (BitVec.eq_of_toNat_eq hones)
  split
  · next hzero =>
    have htoNat : (unpackExponent b).toNat = 0 := congrArg BitVec.toNat hzero
    split
    · exact Or.inl ⟨htoNat, _, rfl⟩
    · next hne =>
      have hpos : 0 < (unpackMantissa b).toNat := Nat.pos_of_ne_zero fun h => hne (BitVec.eq_of_toNat_eq h)
      have he : ((unpackExponent b).toNat : ℤ) - (1023 + 52) + 1 = -1074 := by omega
      have hlog := log2_le_of_lt hm
      refine Or.inr (Or.inl ⟨htoNat, _, _, hpos, congrArg (fun e => UnpackedFloat.finite _ _ e hpos) he, ?_⟩)
      omega
  · right
    right
    have hlead : 2 ^ 52 ≤ (1#1 ++ unpackMantissa b).toNat := by
      rw [BitVec.toNat_append]
      exact Nat.left_le_or
    have hlow : 52 ≤ (1#1 ++ unpackMantissa b).toNat.log2 := (Nat.le_log2 (by omega)).mpr hlead
    have hhigh : (1#1 ++ unpackMantissa b).toNat.log2 ≤ 52 := log2_le_of_lt (1#1 ++ unpackMantissa b).isLt
    have hpos : 0 < (1#1 ++ unpackMantissa b).toNat := by omega
    exact ⟨by omega, _, _, hpos, rfl, by omega⟩

theorem unpack_within {k : ℤ} (b : BitVec Format.binary64.numBits) (hfinite : (unpackExponent b).toNat < 2047)
    (h : ((unpackExponent b).toNat : ℤ) - 1022 ≤ k) : Within k (unpack Format.binary64 b) := by
  rcases unpack_cases b with ⟨hones, -⟩ | ⟨-, s, hzero⟩ | ⟨-, s, m, hm, hsmall, hlog⟩ | ⟨-, s, m, hm, hfull, hlog⟩
  · omega
  · rw [hzero]
    trivial
  · rw [hsmall]
    unfold Within totalExponent
    omega
  · rw [hfull]
    unfold Within totalExponent
    omega

theorem exponent_unpack_le {b : BitVec Format.binary64.numBits} {s : Sign} {m : ℕ} {e : ℤ} {hm : 0 < m}
    (h : unpack Format.binary64 b = .finite s m e hm) : e ≤ 971 := by
  rcases unpack_cases b with ⟨-, hinf⟩ | ⟨-, s, hzero⟩ | ⟨-, s, m, hm, hsmall, -⟩ | ⟨hfield, s, m, hm, hfull, -⟩
  · rw [h] at hinf
    exact absurd hinf.symm Bool.false_ne_true
  · rw [h] at hzero
    cases hzero
  · rw [h] at hsmall
    injection hsmall with _ _ he
    omega
  · rw [h] at hfull
    injection hfull with _ _ he
    omega

/-- A finite float is packed as an infinity if it overflows. Otherwise the exponent field is that of a significand of
full width, or 0. -/
theorem pack_cases (s : Sign) (m : ℕ) (e : ℤ) (hm : 0 < m) :
    972 ≤ e ∧ pack Format.binary64 (.finite s m e hm) = packedInfinity Format.binary64 s ∨
      e ≤ 971 ∧ (unpackExponent (pack Format.binary64 (.finite s m e hm))).toNat =
        if m.log2 = 52 then (e + 1075).toNat else 0 := by
  rw [pack]
  dsimp only
  split
  · next hover =>
    change 2048 ≤ (e + 1023 + 52).toNat + 1 at hover
    exact Or.inl ⟨by omega, rfl⟩
  · next hfits =>
    change ¬ 2048 ≤ (e + 1023 + 52).toNat + 1 at hfits
    refine Or.inr ⟨by omega, ?_⟩
    split
    · next hbits =>
      have hlog : m.log2 + 1 = 53 := hbits
      rw [unpackExponent_packComponents, if_pos (by omega)]
      change (BitVec.ofNat 11 (e + 1023 + 52).toNat).toNat = (e + 1075).toNat
      rw [BitVec.toNat_ofNat]
      omega
    · next hbits =>
      have hlog : m.log2 + 1 ≠ 53 := hbits
      rw [unpackExponent_packComponents, if_neg (by omega)]
      rfl

/-- A finite float is packed as a finite one unless it overflows. -/
theorem unpack_pack_finite {k : ℤ} (hk : 0 ≤ k) (s : Sign) (m : ℕ) (e : ℤ) (hm : 0 < m) (h : totalExponent m e ≤ k) :
    972 ≤ e ∧ unpack Format.binary64 (pack Format.binary64 (.finite s m e hm)) = .infinity s ∨
      Within k (unpack Format.binary64 (pack Format.binary64 (.finite s m e hm))) := by
  unfold totalExponent at h
  rcases pack_cases s m e hm with ⟨he, hinf⟩ | ⟨he, hfield⟩
  · rw [hinf]
    refine Or.inl ⟨he, ?_⟩
    cases s <;> rfl
  · right
    split at hfield
    · exact unpack_within _ (by omega) (by omega)
    · exact unpack_within _ (by omega) (by omega)

theorem unpack_pack_within {k : ℤ} (hk : 0 ≤ k) (hk' : k ≤ 972) {u : UnpackedFloat} (h : Within k u) :
    Within k (unpack Format.binary64 (pack Format.binary64 u)) := by
  rcases h.cases with ⟨s, rfl⟩ | ⟨s, m, e, hm, rfl, htotal⟩
  · rw [pack, unpack_packedZero]
    trivial
  · rcases unpack_pack_finite hk s m e hm htotal with ⟨he, -⟩ | hwithin
    · unfold totalExponent at htotal
      omega
    · exact hwithin

theorem isInf_or_isFinite_pack {k : ℤ} (hk : 0 ≤ k) {u : UnpackedFloat} (h : Within k u) :
    (unpack Format.binary64 (pack Format.binary64 u)).isInf = true ∨
      (unpack Format.binary64 (pack Format.binary64 u)).isFinite = true := by
  rcases h.cases with ⟨s, rfl⟩ | ⟨s, m, e, hm, rfl, htotal⟩
  · rw [pack, unpack_packedZero]
    exact Or.inr rfl
  · rcases unpack_pack_finite hk s m e hm htotal with ⟨-, hinf⟩ | hwithin
    · rw [hinf]
      exact Or.inl rfl
    · exact Or.inr hwithin.isFinite

/-! ## Floats -/

/-- A finite float below `2 ^ k` in magnitude. -/
def Below (k : ℤ) (x : Float) : Prop := Within k x.toModel.unpack

instance (k : ℤ) (x : Float) : Decidable (Below k x) := inferInstanceAs (Decidable (Within k _))

theorem Below.isFinite {k : ℤ} {x : Float} (h : Below k x) : x.isFinite = true := Within.isFinite h

theorem below_pack {k : ℤ} (hk : 0 ≤ k) (hk' : k ≤ 972) {u : UnpackedFloat} (h : Within k u) :
    Below k ⟨Float.Model.pack u⟩ := unpack_pack_within hk hk' h

theorem isFinite_neg {x : Float} (h : x.isFinite = true) : (-x).isFinite = true := by
  change (unpack Format.binary64 (pack Format.binary64 x.toModel.unpack.neg)).isFinite = true
  have hx : x.toModel.unpack.isFinite = true := h
  cases hu : x.toModel.unpack with
  | infinity s =>
    rw [hu] at hx
    exact absurd hx Bool.false_ne_true
  | notANumber =>
    rw [hu] at hx
    exact absurd hx Bool.false_ne_true
  | zero s =>
    change (unpack Format.binary64 (pack Format.binary64 (.zero (-s)))).isFinite = true
    rw [pack, unpack_packedZero]
    rfl
  | finite s m e hm =>
    have he : e ≤ 971 := exponent_unpack_le hu
    rcases unpack_pack_finite (le_max_left 0 _) (-s) m e hm (le_max_right 0 _) with ⟨hover, -⟩ | hwithin
    · omega
    · exact hwithin.isFinite

theorem mul_within {k l : ℤ} (hk : 0 ≤ k) (hl : 0 ≤ l) {u w : UnpackedFloat} (hu : Within k u) (hw : Within l w) :
    Within (k + l + 1) (UnpackedFloat.mul Format.binary64 u w) := by
  rcases hu.cases with ⟨s, rfl⟩ | ⟨s, m, e, hm, rfl, hleft⟩
  · rcases hw.cases with ⟨t, rfl⟩ | ⟨t, n, f, hn, rfl, -⟩
    · trivial
    · trivial
  · rcases hw.cases with ⟨t, rfl⟩ | ⟨t, n, f, hn, rfl, hright⟩
    · trivial
    · apply roundWithAccuracy_within (by omega)
      have hlog := log2_mul_le m n
      unfold totalExponent at hleft hright ⊢
      omega

theorem below_mul {k l : ℤ} (hk : 0 ≤ k) (hl : 0 ≤ l) (hkl : k + l + 1 ≤ 972) {x y : Float} (hx : Below k x)
    (hy : Below l y) : Below (k + l + 1) (x * y) :=
  below_pack (by omega) hkl (mul_within hk hl hx hy)

/-- A product of finite floats is finite unless it overflows. -/
theorem isFinite_mul {k l : ℤ} (hk : 0 ≤ k) (hl : 0 ≤ l) {x y : Float} (hx : Below k x) (hy : Below l y)
    (h : (x * y).isInf = false) : (x * y).isFinite = true := by
  rcases isInf_or_isFinite_pack (by omega) (mul_within hk hl hx hy) with hinf | hfinite
  · exact absurd (h.symm.trans hinf) Bool.false_ne_true
  · exact hfinite

/-! ## Quotients -/

/-- A finite float of 1 or more in magnitude. -/
def OneOrMore : UnpackedFloat → Prop
  | .finite _ m e _ => 1 ≤ totalExponent m e
  | _ => False

instance : DecidablePred OneOrMore
  | .finite _ m e _ => inferInstanceAs (Decidable (1 ≤ totalExponent m e))
  | .zero _ => isFalse id
  | .infinity _ => isFalse id
  | .notANumber => isFalse id

/-- A finite float of 1 or more in magnitude. -/
def AtLeastOne (x : Float) : Prop := OneOrMore x.toModel.unpack

instance (x : Float) : Decidable (AtLeastOne x) := inferInstanceAs (Decidable (OneOrMore _))

theorem OneOrMore.cases {u : UnpackedFloat} (h : OneOrMore u) :
    ∃ s m e hm, u = .finite s m e hm ∧ 1 ≤ totalExponent m e := by
  cases u with
  | finite s m e hm => exact ⟨s, m, e, hm, rfl, h⟩
  | zero s => exact h.elim
  | infinity s => exact h.elim
  | notANumber => exact h.elim

theorem AtLeastOne.below {x : Float} (h : AtLeastOne x) : ∃ k, 0 ≤ k ∧ Below k x := by
  obtain ⟨s, m, e, hm, hx, hone⟩ := h.cases
  refine ⟨totalExponent m e, by omega, ?_⟩
  unfold Below
  rw [hx]
  exact le_refl _

theorem div_within {k : ℤ} (hk : 0 ≤ k) {u w : UnpackedFloat} (hu : Within k u) (hw : OneOrMore w) :
    Within (k + 1) (UnpackedFloat.div Format.binary64 u w) := by
  obtain ⟨t, n, f, hn, rfl, hone⟩ := hw.cases
  rcases hu.cases with ⟨s, rfl⟩ | ⟨s, m, e, hm, rfl, htotal⟩
  · trivial
  apply roundWithAccuracy_within hk
  change totalExponent ((m <<< (e - f - min (e - f)
    (max (totalExponent m e - totalExponent n f - 53) (-1074))).toNat) / n)
    (min (e - f) (max (totalExponent m e - totalExponent n f - 53) (-1074))) ≤ k
  generalize htarget : min (e - f) (max (totalExponent m e - totalExponent n f - 53) (-1074)) = target
  generalize hshift : (e - f - target).toNat = shift
  generalize hq : m <<< shift / n = q
  unfold totalExponent at htotal hone htarget ⊢
  by_cases hzero : q = 0
  · have hlog : q.log2 = 0 := by rw [hzero, Nat.log2_zero]
    omega
  · have hlog := log2_div_add_le (hq.symm ▸ hzero : m <<< shift / n ≠ 0)
    rw [hq, log2_shiftLeft hm.ne'] at hlog
    omega

theorem below_div {k : ℤ} (hk : 0 ≤ k) (hk' : k + 1 ≤ 972) {x y : Float} (hx : Below k x)
    (hy : AtLeastOne y) : Below (k + 1) (x / y) :=
  below_pack (by omega) hk' (div_within hk hx hy)

/-! ## Whole numbers -/

theorem round_within {k : ℤ} (hk : 0 ≤ k) (s : Sign) {m : ℕ} (hm : m ≠ 0) (e : ℤ) (h : totalExponent m e ≤ k) :
    Within (k + 1) (UnpackedFloat.round Format.binary64 s m e) := by
  apply roundWithAccuracy_within hk
  unfold totalExponent at h ⊢
  rw [log2_shiftLeft hm]
  omega

theorem ofNat_within {k n : ℕ} (h : n < 2 ^ k) : Within (k + 1) (UnpackedFloat.ofNat Format.binary64 n) := by
  unfold UnpackedFloat.ofNat UnpackedFloat.ofInt UnpackedFloat.normalize
  split
  · next hlt =>
    have := Int.compare_eq_lt.mp hlt
    omega
  · trivial
  · next hgt =>
    have hpos := Int.compare_eq_gt.mp hgt
    apply round_within (by omega) _ (by omega)
    have hn : n ≠ 0 := by omega
    have hlog : n.log2 < k := (Nat.log2_lt hn).mpr h
    unfold totalExponent
    rw [Int.toNat_natCast]
    omega

/-- A decimal with a positive exponent is rounded once. -/
theorem ofScientific_eq_round {m : ℕ} (hm : m ≠ 0) {n : ℕ} (hn : n ≤ 2048) :
    UnpackedFloat.ofScientific Format.binary64 m n =
      roundWithAccuracy Format.binary64 .positive (m <<< 53 * 10 ^ n) (-53) .exact := by
  unfold UnpackedFloat.ofScientific
  have hsmall : ¬ ((n : ℤ) > 2 ^ Format.binary64.exponentBits) := by
    change ¬ ((n : ℤ) > 2048)
    omega
  have hlarge : ¬ ((n : ℤ) < -(2 ^ Format.binary64.exponentBits + (m.log2 : ℤ))) := by
    change ¬ ((n : ℤ) < -(2048 + (m.log2 : ℤ)))
    omega
  rw [dif_neg hm, if_neg hsmall, if_neg hlarge, if_pos (Int.natCast_nonneg n)]
  rfl

theorem ofScientific_eq_pack {m n : ℕ} (h : ¬ (m < 2 ^ 53 ∧ n ≤ 22)) :
    Float.ofScientific m false n = ⟨Float.Model.pack (UnpackedFloat.ofScientific Format.binary64 m n)⟩ := by
  unfold Float.ofScientific
  rw [dif_neg h]
  rfl

theorem below_toFloat {n : ℕ} (h : n < 2 ^ 64) : Below 67 n.toFloat := by
  change Below 67 (Float.ofScientific n false 0)
  by_cases hsmall : n < 2 ^ 53
  · have hone : Below 1 Float.exactlyRepresentablePowersOfTen[0] := by decide
    have hn : Below 65 n.toUInt64.toFloat := by
      have hword : n.toUInt64.toNat = n := by
        rw [Nat.toUInt64_eq, UInt64.toNat_ofNat_of_lt' h]
      refine below_pack (by decide) (by decide) (u := UnpackedFloat.ofNat Format.binary64 n.toUInt64.toNat) ?_
      rw [hword]
      exact ofNat_within h
    unfold Float.ofScientific
    rw [dif_pos ⟨hsmall, by decide⟩]
    exact below_mul (by decide) (by decide) (by decide) hn hone
  · have hn : n ≠ 0 := by omega
    have hlog : n.log2 < 64 := (Nat.log2_lt hn).mpr h
    rw [ofScientific_eq_pack (by omega), ofScientific_eq_round hn (by decide), pow_zero, mul_one]
    generalize hm : n <<< 53 = m
    have htotal : totalExponent m (-53) ≤ 64 := by
      unfold totalExponent
      rw [← hm, log2_shiftLeft hn]
      omega
    have hround := roundWithAccuracy_within (by decide) Sign.positive m (-53) Accuracy.exact htotal
    exact below_pack (by decide) (by decide) (hround.mono (by decide))

/-! ## Powers of ten -/

/-- A significand of full width keeps its width when it is rounded, and the magnitude does not shrink. -/
theorem roundWithAccuracy_normal (s : Sign) {m : ℕ} {e : ℤ} (accuracy : Accuracy) (hbits : 52 ≤ m.log2)
    (h : 1 ≤ totalExponent m e) :
    ∃ (m' : ℕ) (e' : ℤ) (hm' : 0 < m'), roundWithAccuracy Format.binary64 s m e accuracy = .finite s m' e' hm' ∧
      m'.log2 = 52 ∧ totalExponent m e ≤ totalExponent m' e' := by
  obtain ⟨shift, r, shift', hshift, ⟨hlow, -⟩, hshift', hcases⟩ := roundWithAccuracy_cases s m e accuracy
  have hm : m ≠ 0 := by
    rintro rfl
    simp at hbits
  unfold totalExponent at h hshift hshift'
  have hq : m / 2 ^ shift ≠ 0 := div_pow_ne_zero hm (by omega)
  have hdiv := log2_div_pow hq
  have hlog : (m / 2 ^ shift).log2 ≤ r.log2 := log2_mono hlow
  have hr : r ≠ 0 := by
    rintro rfl
    exact hq (Nat.le_zero.mp hlow)
  -- The rounding may have carried into one more bit, which the second shift gives back.
  have hq' : r / 2 ^ shift' ≠ 0 := div_pow_ne_zero hr (by omega)
  have hdiv' := log2_div_pow hq'
  rcases hcases with ⟨hzero, -⟩ | ⟨hpos, hfinite⟩
  · exact absurd hzero hq'
  · refine ⟨_, _, hpos, hfinite, by omega, ?_⟩
    unfold totalExponent
    omega

theorem unpack_oneOrMore (b : BitVec Format.binary64.numBits) (hfinite : (unpackExponent b).toNat < 2047)
    (h : 1023 ≤ (unpackExponent b).toNat) : OneOrMore (unpack Format.binary64 b) := by
  rcases unpack_cases b with ⟨hones, -⟩ | ⟨hzero, -⟩ | ⟨hzero, -⟩ | ⟨-, s, m, hm, hfull, hlog⟩
  · omega
  · omega
  · omega
  · rw [hfull]
    unfold OneOrMore totalExponent
    omega

theorem unpack_pack_oneOrMore {s : Sign} {m : ℕ} {e : ℤ} (hm : 0 < m) (hbits : m.log2 = 52)
    (h : 1 ≤ totalExponent m e) (he : e ≤ 971) :
    OneOrMore (unpack Format.binary64 (pack Format.binary64 (.finite s m e hm))) := by
  unfold totalExponent at h
  rcases pack_cases s m e hm with ⟨hover, -⟩ | ⟨-, hfield⟩
  · omega
  · rw [if_pos hbits] at hfield
    exact unpack_oneOrMore _ (by omega) (by omega)

/-- The powers that are looked up, and the largest one, whose rounding comes close to an overflow. -/
theorem atLeastOne_ends : ∀ n : Fin 309, n.val < 23 ∨ n.val = 308 →
    AtLeastOne (Float.ofScientific 1 false n) := by
  decide +kernel

theorem atLeastOne_powerOfTen {n : ℕ} (hn : n ≤ 308) : AtLeastOne (Float.ofScientific 1 false n) := by
  by_cases hends : n < 23 ∨ n = 308
  · exact atLeastOne_ends ⟨n, by omega⟩ hends
  have hlog : (10 ^ n).log2 < 1023 :=
    calc (10 ^ n).log2 ≤ (10 ^ 307).log2 := log2_mono (Nat.pow_le_pow_right (by decide) (by omega))
      _ < 1023 := by decide +kernel
  have hshift : (1 <<< 53 * 10 ^ n).log2 = (10 ^ n).log2 + 53 := by
    rw [Nat.one_shiftLeft, mul_comm, ← Nat.shiftLeft_eq, log2_shiftLeft (by positivity)]
  have hone : 1 ≤ totalExponent (1 <<< 53 * 10 ^ n) (-53) := by
    unfold totalExponent
    omega
  have hle : totalExponent (1 <<< 53 * 10 ^ n) (-53) ≤ 1023 := by
    unfold totalExponent
    omega
  rw [ofScientific_eq_pack (by omega), ofScientific_eq_round (by decide) (by omega)]
  have hround := roundWithAccuracy_within (by decide) .positive _ _ .exact hle
  obtain ⟨m, e, hm, heq, hbits, htotal⟩ := roundWithAccuracy_normal .positive .exact (by omega) hone
  rw [heq] at hround ⊢
  have hbound : totalExponent m e ≤ 1023 + 1 := hround
  refine unpack_pack_oneOrMore hm hbits (by omega) ?_
  unfold totalExponent at hbound
  omega

end CallAtlas.Binary64
