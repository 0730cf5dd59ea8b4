import Mathlib
import CallAtlas.Geometry.Vec
import CallAtlas.Proofs.Settings.Bounds

/-! Geometry without rounding: the real numbers as scalars, where every value is finite and a number, and the plane
over them as a commutative group.

`Scalar.Exact` says the same of any scalars that the reals lie among, beside infinite values and values that are not
numbers. -/

namespace CallAtlas

set_option autoImplicit false

noncomputable instance realScalar : Scalar ℝ where
  beq x y := decide (x = y)
  decidableLT := Real.decidableLT
  decidableLE := Real.decidableLE
  isFinite _ := true
  sqrt := Real.sqrt
  hypot x y := √(x * x + y * y)
  sin := Real.sin
  cos := Real.cos

namespace Scalar

@[simp] theorem isNaN_real (x : ℝ) : isNaN x = false := by
  simp [isNaN]

@[simp] theorem isFinite_real (x : ℝ) : isFinite x = true := rfl

theorem larger_real (x y : ℝ) : larger x y = max x y := by
  rw [larger, isNaN_real, if_neg Bool.false_ne_true, max_def_lt]

theorem smaller_real (x y : ℝ) : smaller x y = min x y := by
  rw [smaller, isNaN_real, if_neg Bool.false_ne_true]
  split
  · next h => exact (min_eq_right h.le).symm
  · next h => exact (min_eq_left (not_lt.mp h)).symm

@[simp] theorem zero_real : (0.0 : ℝ) = 0 := by
  norm_num

theorem abs_real (x : ℝ) : Scalar.abs x = |x| := by
  rw [Scalar.abs, zero_real]
  split
  · next h => exact (abs_of_neg h).symm
  · next h => exact (abs_of_nonneg (not_lt.mp h)).symm

theorem hypot_neg (x y : ℝ) : hypot (-x) (-y) = hypot x y := by
  change √(-x * -x + -y * -y) = √(x * x + y * y)
  rw [neg_mul_neg, neg_mul_neg]

/-! ### Reals among other scalars -/

/-- The reals lie among the scalars, which compute with them exactly. A number that is no real lies below all of them or
above all of them. -/
structure Exact {α : Type} [Scalar α] (ι : ℝ → α) : Prop where
  add (x y : ℝ) : ι x + ι y = ι (x + y)
  sub (x y : ℝ) : ι x - ι y = ι (x - y)
  mul (x y : ℝ) : ι x * ι y = ι (x * y)
  lt_iff (x y : ℝ) : ι x < ι y ↔ x < y
  le_iff (x y : ℝ) : ι x ≤ ι y ↔ x ≤ y
  literal (mantissa : ℕ) (negative : Bool) (exponent : ℕ) :
    (OfScientific.ofScientific mantissa negative exponent : α) =
      ι (OfScientific.ofScientific mantissa negative exponent)
  placed {x : α} (hx : isNaN x = false) : (∃ r, x = ι r) ∨ (∀ r, x < ι r) ∨ ∀ r, ι r < x

theorem exact_real : Exact (id : ℝ → ℝ) where
  add _ _ := rfl
  sub _ _ := rfl
  mul _ _ := rfl
  lt_iff _ _ := Iff.rfl
  le_iff _ _ := Iff.rfl
  literal _ _ _ := rfl
  placed {x} _ := Or.inl ⟨x, rfl⟩

namespace Exact

variable {α : Type} [Scalar α] {ι : ℝ → α}

theorem zero (hι : Exact ι) : (0.0 : α) = ι 0 := by
  rw [← zero_real]
  exact hι.literal 0 true 1

theorem one (hι : Exact ι) : (1.0 : α) = ι 1 := by
  rw [show (1 : ℝ) = 1.0 by norm_num]
  exact hι.literal 10 true 1

theorem clamp_of_mem (hι : Exact ι) {lo hi r : ℝ} (hr : r ∈ Set.Icc lo hi) : clamp (ι lo) (ι hi) (ι r) = ι r := by
  apply clamp_of_not_lt
  · rw [hι.lt_iff, not_lt]
    exact hr.1
  · rw [hι.lt_iff, not_lt]
    exact hr.2

/-- What is pulled between two reals is a real, unless it is no number. -/
theorem clamp_mem (hι : Exact ι) {lo hi : ℝ} (horder : lo ≤ hi) {x : α} (hx : isNaN x = false) :
    ∃ r ∈ Set.Icc lo hi, clamp (ι lo) (ι hi) x = ι r := by
  rcases clamp_cases (ι lo) (ι hi) x with h | h | ⟨h, hlo, hhi⟩
  · exact ⟨lo, Set.left_mem_Icc.mpr horder, h⟩
  · exact ⟨hi, Set.right_mem_Icc.mpr horder, h⟩
  · rcases hι.placed hx with ⟨r, rfl⟩ | hbelow | habove
    · rw [hι.lt_iff, not_lt] at hlo hhi
      exact ⟨r, ⟨hlo, hhi⟩, h⟩
    · exact absurd (hbelow lo) hlo
    · exact absurd (habove hi) hhi

theorem injective (hι : Exact ι) : Function.Injective ι := by
  intro x y h
  have hle : ∀ {z}, ι z ≤ ι z := (hι.le_iff _ _).mpr le_rfl
  exact le_antisymm ((hι.le_iff x y).mp (h ▸ hle)) ((hι.le_iff y x).mp (h ▸ hle))

theorem isNaN_eq (hι : Exact ι) (x : ℝ) : isNaN (ι x) = false := by
  rw [isNaN, decide_eq_true ((hι.le_iff x x).mpr le_rfl), Bool.not_true]

theorem larger_eq (hι : Exact ι) (x y : ℝ) : larger (ι x) (ι y) = ι (max x y) := by
  rw [larger, hι.isNaN_eq, if_neg Bool.false_ne_true]
  split
  · next h => rw [max_eq_right ((hι.lt_iff x y).mp h).le]
  · next h => rw [max_eq_left (not_lt.mp (mt (hι.lt_iff x y).mpr h))]

theorem smaller_eq (hι : Exact ι) (x y : ℝ) : smaller (ι x) (ι y) = ι (min x y) := by
  rw [smaller, hι.isNaN_eq, if_neg Bool.false_ne_true]
  split
  · next h => rw [min_eq_right ((hι.lt_iff y x).mp h).le]
  · next h => rw [min_eq_left (not_lt.mp (mt (hι.lt_iff y x).mpr h))]

end Exact

/-- Quotients and whole numbers are exact as well, and the finite scalars are the reals. -/
structure ExactField {α : Type} [Scalar α] (ι : ℝ → α) : Prop extends Exact ι where
  div (x y : ℝ) (hy : y ≠ 0) : ι x / ι y = ι (x / y)
  natCast (n : ℕ) : (n : α) = ι n
  isFinite_iff (x : α) : isFinite x = true ↔ ∃ r, x = ι r

theorem exactField_real : ExactField (id : ℝ → ℝ) where
  toExact := exact_real
  div _ _ _ := rfl
  natCast _ := rfl
  isFinite_iff x := iff_of_true rfl ⟨x, rfl⟩

end Scalar

attribute [ext] Vec

namespace Vec

noncomputable instance realZero : Zero (Vec ℝ) := ⟨Vec.zero⟩

theorem zero_eq : (Vec.zero : Vec ℝ) = 0 := rfl

@[simp] theorem zero_x : (0 : Vec ℝ).x = 0 := Scalar.zero_real

@[simp] theorem zero_y : (0 : Vec ℝ).y = 0 := Scalar.zero_real

noncomputable instance realAddCommGroup : AddCommGroup (Vec ℝ) where
  add_assoc a b c := Vec.ext (add_assoc _ _ _) (add_assoc _ _ _)
  zero_add a := by ext <;> simp
  add_zero a := by ext <;> simp
  nsmul := nsmulRec
  sub_eq_add_neg a b := Vec.ext (sub_eq_add_neg _ _) (sub_eq_add_neg _ _)
  zsmul := zsmulRec
  neg_add_cancel a := by ext <;> simp
  add_comm a b := Vec.ext (add_comm _ _) (add_comm _ _)

theorem lengthSq_neg (a : Vec ℝ) : (-a).lengthSq = a.lengthSq := by
  simp only [lengthSq, neg_x, neg_y, neg_mul_neg]

theorem lengthSq_scale (a : Vec ℝ) (k : ℝ) : (a * k).lengthSq = a.lengthSq * (k * k) := by
  simp only [Vec.lengthSq, Vec.scale_x, Vec.scale_y]
  ring

theorem length_le_iff (a : Vec ℝ) {r : ℝ} (hr : 0 ≤ r) : a.length ≤ r ↔ a.lengthSq ≤ r * r := by
  change √(a.x * a.x + a.y * a.y) ≤ r ↔ a.x * a.x + a.y * a.y ≤ r * r
  rw [Real.sqrt_le_left hr, pow_two]

theorem length_neg (a : Vec ℝ) : (-a).length = a.length := Scalar.hypot_neg a.x a.y

theorem neg_scale (a : Vec ℝ) (k : ℝ) : -a * k = -(a * k) := by
  ext
  · exact neg_mul _ _
  · exact neg_mul _ _

theorem scale_scale (a : Vec ℝ) (r s : ℝ) : a * r * s = a * (r * s : ℝ) := by
  ext
  · exact mul_assoc _ _ _
  · exact mul_assoc _ _ _

theorem isFinite_real (a : Vec ℝ) : a.isFinite = true := rfl

/-- Adding up one displacement after the other. -/
theorem foldl_add_eq {ι : Type} (f : ι → Vec ℝ) (list : List ι) (start : Vec ℝ) :
    list.foldl (fun sum i => sum + f i) start = start + (list.map f).sum := by
  induction list generalizing start with
  | nil => exact (add_zero start).symm
  | cons i rest ih => rw [List.foldl_cons, ih, List.map_cons, List.sum_cons, add_assoc]

end Vec

end CallAtlas
