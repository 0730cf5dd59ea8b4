import CallAtlas.Proofs.Settings.Bounds
import Mathlib

/-! Comparisons of binary32 floats.

A float that is a number has a place on a line, and two of them compare as their places do (`lt_iff`, `le_iff`). What
is not a number compares with nothing. Larger values and clamped values follow from that, and which of them are finite,
since the infinite floats stand at the two ends of the line. -/

namespace CallAtlas.Binary32

set_option autoImplicit false

open Float.Model (UnpackedFloat)
open Scalar (larger clamp)

/-! ## Places -/

/-- Sign and kind first, then the exponent, then the significand. -/
def placeOf : UnpackedFloat → ℤ ×ₗ ℤ ×ₗ ℤ
  | .infinity .negative => toLex (-2, toLex (0, 0))
  | .finite .negative m e _ => toLex (-1, toLex (-e, -m))
  | .zero _ => toLex (0, toLex (0, 0))
  | .finite .positive m e _ => toLex (1, toLex (e, m))
  | .infinity .positive => toLex (2, toLex (0, 0))
  | .notANumber => toLex (0, toLex (0, 0))

theorem compare_natCast (m n : ℕ) : compare (m : ℤ) (n : ℤ) = compare m n := by
  have h := (Nat.strictMono_cast (α := ℤ)).cmp_map_eq m n
  simpa only [cmp_eq_compare] using h

theorem compare_neg_neg (a b : ℤ) : compare (-a) (-b) = (compare a b).swap := by
  have h := (strictMono_id (α := ℤ)).neg.cmp_map_eq a b
  simpa only [cmp_eq_compare, Int.compare_swap, id_eq] using h

theorem compare_finite_positive (m n : ℕ) (e f : ℤ) :
    compare (toLex ((1 : ℤ), toLex (e, (m : ℤ)))) (toLex (1, toLex (f, (n : ℤ)))) =
      (compare e f).then (compare m n) := by
  rw [← compare_natCast]
  rfl

theorem compare_finite_negative (m n : ℕ) (e f : ℤ) :
    compare (toLex ((-1 : ℤ), toLex (-e, -(m : ℤ)))) (toLex (-1, toLex (-f, -(n : ℤ)))) =
      ((compare e f).then (compare m n)).swap := by
  rw [Ordering.swap_then, ← compare_natCast, ← compare_neg_neg, ← compare_neg_neg]
  rfl

theorem compare_eq_some (a b : UnpackedFloat) (ha : a ≠ .notANumber) (hb : b ≠ .notANumber) :
    a.compare b = some (compare (placeOf a) (placeOf b)) := by
  cases a with
  | notANumber => exact absurd rfl ha
  | infinity s =>
    cases b with
    | notANumber => exact absurd rfl hb
    | infinity t => cases s <;> cases t <;> rfl
    | zero t => cases s <;> rfl
    | finite t m e hm => cases s <;> cases t <;> rfl
  | zero s =>
    cases b with
    | notANumber => exact absurd rfl hb
    | infinity t => cases t <;> rfl
    | zero t => rfl
    | finite t m e hm => cases t <;> rfl
  | finite s m e hm =>
    cases b with
    | notANumber => exact absurd rfl hb
    | infinity t => cases s <;> cases t <;> rfl
    | zero t => cases s <;> rfl
    | finite t n f hn =>
      -- Only here do exponent and significand decide, and they do so the other way round below zero.
      cases s <;> cases t
      · exact congrArg some (compare_finite_negative m n e f).symm
      · rfl
      · rfl
      · exact congrArg some (compare_finite_positive m n e f).symm

theorem compare_eq_none (a b : UnpackedFloat) (h : a = .notANumber ∨ b = .notANumber) : a.compare b = none := by
  rcases h with rfl | rfl
  · rfl
  · cases a <;> rfl

def place (x : Float32) : ℤ ×ₗ ℤ ×ₗ ℤ := placeOf x.toModel.unpack

theorem isNaN_eq_false_iff (x : Float32) : x.isNaN = false ↔ x.toModel.unpack ≠ .notANumber := by
  rw [← Bool.not_eq_true]
  exact not_congr Float.Model.UnpackedFloat.isNaN_iff

theorem isNaN_of_isFinite {x : Float32} (h : x.isFinite = true) : x.isNaN = false := by
  rw [isNaN_eq_false_iff]
  intro hnan
  have hunpacked : x.toModel.unpack.isFinite = true := h
  rw [hnan] at hunpacked
  cases hunpacked

theorem compare_of_isNaN (x y : Float32) (h : ¬ (x.isNaN = false ∧ y.isNaN = false)) :
    x.toModel.unpack.compare y.toModel.unpack = none := by
  rw [isNaN_eq_false_iff, isNaN_eq_false_iff, ← not_or, not_not] at h
  exact compare_eq_none _ _ h

theorem compare_of_numbers {x y : Float32} (hx : x.isNaN = false) (hy : y.isNaN = false) :
    x.toModel.unpack.compare y.toModel.unpack = some (compare (place x) (place y)) :=
  compare_eq_some _ _ ((isNaN_eq_false_iff x).mp hx) ((isNaN_eq_false_iff y).mp hy)

theorem lt_iff (x y : Float32) : x < y ↔ (x.isNaN = false ∧ y.isNaN = false) ∧ place x < place y := by
  have hlt : x < y ↔ (x.toModel.unpack.compare y.toModel.unpack == some .lt) = true :=
    decide_eq_true_iff
  by_cases h : x.isNaN = false ∧ y.isNaN = false
  · rw [hlt, compare_of_numbers h.1 h.2, and_iff_right h, ← compare_lt_iff_lt, beq_iff_eq, Option.some.injEq]
  · rw [hlt, compare_of_isNaN x y h]
    exact iff_of_false (by simp) fun hxy => h hxy.1

theorem le_iff (x y : Float32) : x ≤ y ↔ (x.isNaN = false ∧ y.isNaN = false) ∧ place x ≤ place y := by
  have hle : x ≤ y ↔ (x.toModel.unpack.compare y.toModel.unpack).any (·.isLE) = true :=
    decide_eq_true_iff
  by_cases h : x.isNaN = false ∧ y.isNaN = false
  · rw [hle, compare_of_numbers h.1 h.2, and_iff_right h, ← compare_le_iff_le, Option.any_some, Ordering.isLE_iff_ne_gt]
  · rw [hle, compare_of_isNaN x y h]
    exact iff_of_false (by simp) fun hxy => h hxy.1

/-! ## What follows for comparisons -/

theorem le_refl_iff (x : Float32) : x ≤ x ↔ x.isNaN = false := by
  rw [le_iff, and_self, and_iff_left le_rfl]

theorem isNaN_eq (x : Float32) : Scalar.isNaN x = x.isNaN := by
  rw [Scalar.isNaN, Bool.not_eq_eq_eq_not, Bool.eq_iff_iff, decide_eq_true_iff, le_refl_iff, Bool.not_eq_true']

theorem le_of_not_lt {x y : Float32} (hx : x.isNaN = false) (hy : y.isNaN = false) (h : ¬ x < y) : y ≤ x := by
  rw [lt_iff, and_iff_right ⟨hx, hy⟩, not_lt] at h
  exact (le_iff y x).mpr ⟨⟨hy, hx⟩, h⟩

theorem not_lt_of_le {x y : Float32} (h : x ≤ y) : ¬ y < x := by
  rw [le_iff] at h
  rw [lt_iff]
  exact fun hlt => absurd hlt.2 (not_lt.mpr h.2)

theorem lt_of_lt_of_le {x y z : Float32} (hxy : x < y) (hyz : y ≤ z) : x < z := by
  rw [lt_iff] at hxy ⊢
  rw [le_iff] at hyz
  exact ⟨⟨hxy.1.1, hyz.1.2⟩, hxy.2.trans_le hyz.2⟩

theorem le_of_lt {x y : Float32} (h : x < y) : x ≤ y := by
  rw [lt_iff] at h
  exact (le_iff x y).mpr ⟨h.1, h.2.le⟩

theorem isNaN_of_le {x y : Float32} (h : x ≤ y) : y.isNaN = false := ((le_iff x y).mp h).1.2

theorem le_larger {y : Float32} (hy : y.isNaN = false) (x : Float32) : y ≤ larger x y := by
  have hself : y ≤ y := (le_refl_iff y).mpr hy
  unfold larger
  split
  · exact hself
  · next hx =>
    rw [isNaN_eq, Bool.not_eq_true] at hx
    split
    · exact hself
    · next h => exact le_of_not_lt hx hy h

theorem larger_of_le {x y : Float32} (h : y ≤ x) : larger x y = x := by
  rw [larger, isNaN_eq, ((le_iff y x).mp h).1.2, if_neg Bool.false_ne_true, if_neg (not_lt_of_le h)]

theorem clamp_mem {lo hi x : Float32} (hbounds : lo ≤ hi) (hx : x.isNaN = false) :
    lo ≤ clamp lo hi x ∧ clamp lo hi x ≤ hi := by
  have hnumbers := ((le_iff lo hi).mp hbounds).1
  have hlo : lo ≤ lo := (le_refl_iff lo).mpr hnumbers.1
  have hhi : hi ≤ hi := (le_refl_iff hi).mpr hnumbers.2
  rcases Scalar.clamp_cases lo hi x with h | h | ⟨h, hbelow, habove⟩ <;> rw [h]
  · exact ⟨hlo, hbounds⟩
  · exact ⟨hbounds, hhi⟩
  · exact ⟨le_of_not_lt hx hnumbers.1 hbelow, le_of_not_lt hnumbers.2 hx habove⟩

/-! ## Finite floats -/

theorem isFinite_iff (x : Float32) :
    x.isFinite = true ↔
      x.isNaN = false ∧ toLex ((-2 : ℤ), toLex ((0 : ℤ), (0 : ℤ))) < place x ∧ place x < toLex (2, toLex (0, 0)) := by
  rw [isNaN_eq_false_iff, place]
  change x.toModel.unpack.isFinite = true ↔ _
  generalize x.toModel.unpack = u
  cases u with
  | notANumber => simp [Float.Model.UnpackedFloat.isFinite]
  | infinity s => cases s <;> simp [Float.Model.UnpackedFloat.isFinite, placeOf]
  | zero s => simp [Float.Model.UnpackedFloat.isFinite, placeOf, Prod.Lex.toLex_lt_toLex]
  | finite s m e hm => cases s <;> simp [Float.Model.UnpackedFloat.isFinite, placeOf, Prod.Lex.toLex_lt_toLex]

theorem isFinite_of_le_of_le {lo x hi : Float32} (hlo : lo.isFinite = true) (hhi : hi.isFinite = true) (hx : lo ≤ x)
    (hx' : x ≤ hi) : x.isFinite = true := by
  rw [isFinite_iff] at hlo hhi ⊢
  rw [le_iff] at hx hx'
  exact ⟨hx.1.2, hlo.2.1.trans_le hx.2, hx'.2.trans_lt hhi.2.2⟩

theorem isFinite_clamp {lo hi x : Float32} (hbounds : lo ≤ hi) (hlo : lo.isFinite = true) (hhi : hi.isFinite = true)
    (hx : x.isNaN = false) : (clamp lo hi x).isFinite = true :=
  isFinite_of_le_of_le hlo hhi (clamp_mem hbounds hx).1 (clamp_mem hbounds hx).2

theorem isFinite_clamp_unit {x : Float32} (hx : x.isNaN = false) : (clamp 0.0 1.0 x).isFinite = true :=
  isFinite_clamp (by decide) (by decide) (by decide) hx

/-- Raising a number to a finite one leaves it infinite only if it was so, and above. -/
theorem isFinite_larger_iff {x y : Float32} (hx : x.isNaN = false) (hy : y.isFinite = true) :
    (larger x y).isFinite = true ↔ x.isFinite = true ∨ x < 0.0 := by
  have hzero := (isFinite_iff 0.0).mp (by decide)
  have hfinite := (isFinite_iff y).mp hy
  rw [larger, isNaN_eq, hx, if_neg Bool.false_ne_true]
  split
  · next hlt =>
    refine iff_of_true hy ?_
    rw [lt_iff] at hlt
    by_cases hneg : x < 0.0
    · exact Or.inr hneg
    · have hle := (le_iff _ _).mp (le_of_not_lt hx hzero.1 hneg)
      exact Or.inl ((isFinite_iff x).mpr ⟨hx, hzero.2.1.trans_le hle.2, hlt.2.trans hfinite.2.2⟩)
  · next hge =>
    have hle := (le_iff _ _).mp (le_of_not_lt hx hfinite.1 hge)
    refine ⟨Or.inl, fun h => h.elim id fun hneg => ?_⟩
    rw [lt_iff] at hneg
    exact (isFinite_iff x).mpr ⟨hx, hfinite.2.1.trans_le hle.2, hneg.2.trans hzero.2.2⟩

end CallAtlas.Binary32
