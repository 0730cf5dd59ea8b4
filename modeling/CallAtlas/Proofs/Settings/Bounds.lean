import CallAtlas.Number.Binary32.Sine
import CallAtlas.Settings.Sanitize

/-! Bounds that values are kept between: clamping twice is clamping once, clamped settings lie between their bounds, and
sanitized scale bounds are positive and in order. -/

namespace CallAtlas

set_option autoImplicit false

variable {α : Type} [Scalar α]

namespace Scalar

theorem clamp_of_not_lt (lo hi x : α) (hlo : ¬ x < lo) (hhi : ¬ hi < x) : clamp lo hi x = x := by
  simp only [clamp, if_neg hlo, if_neg hhi]

theorem clamp_cases (lo hi x : α) :
    clamp lo hi x = lo ∨ clamp lo hi x = hi ∨ (clamp lo hi x = x ∧ ¬ x < lo ∧ ¬ hi < x) := by
  unfold clamp
  by_cases hlo : x < lo
  · rw [if_pos hlo]
    by_cases hhi : hi < lo
    · exact Or.inr (Or.inl (if_pos hhi))
    · exact Or.inl (if_neg hhi)
  · rw [if_neg hlo]
    by_cases hhi : hi < x
    · exact Or.inr (Or.inl (if_pos hhi))
    · exact Or.inr (Or.inr ⟨if_neg hhi, hlo, hhi⟩)

/-- This needs nothing of the order: a bound that was taken once is taken again, even if the bounds are out of order or
are no numbers. -/
theorem clamp_clamp (lo hi x : α) : clamp lo hi (clamp lo hi x) = clamp lo hi x := by
  unfold clamp
  by_cases hlo : x < lo <;> by_cases hhi : hi < lo <;> by_cases hx : hi < x <;> simp [hlo, hhi, hx]

/-- A value that is not outside bounds, and the bounds are in order. -/
structure Kept (lo hi x : α) : Prop where
  ordered : lo ≤ hi
  notBelow : ¬ x < lo
  notAbove : ¬ hi < x

theorem clamp_kept (lo hi x : α) (hordered : lo ≤ hi) (hlo : ¬ lo < lo) (hhi : ¬ hi < hi) (horder : ¬ hi < lo) :
    Kept lo hi (clamp lo hi x) := by
  rcases clamp_cases lo hi x with h | h | ⟨h, hx, hx'⟩ <;> rw [h]
  · exact ⟨hordered, hlo, horder⟩
  · exact ⟨hordered, horder, hhi⟩
  · exact ⟨hordered, hx, hx'⟩

end Scalar

/-- Every setting that is clamped lies between its bounds. -/
structure Settings.Clamped (s : Settings α) : Prop where
  alphaMin : Scalar.Kept 1e-6 0.5 s.simulation.alphaMin
  alphaDecay : Scalar.Kept 1e-4 1.0 s.simulation.alphaDecay
  velocityRetention : Scalar.Kept 0.0 1.0 s.simulation.velocityRetention
  collisionStrength : Scalar.Kept 0.0 1.0 s.simulation.collisionStrength
  collisionIterations : 1 ≤ s.simulation.collisionIterations ∧ s.simulation.collisionIterations ≤ 8
  centerStrength : Scalar.Kept 0.0 1.0 s.simulation.centerStrength
  dragAlphaTarget : Scalar.Kept 0.0 1.0 s.simulation.dragAlphaTarget
  radialStrength : Scalar.Kept 0.0 1.0 s.layout.radialStrength
  minimapScale : Scalar.Kept 0.01 1.0 s.minimap.scale

namespace ViewportSettings

theorem bounds_of_not_badBounds {s : ViewportSettings α} (h : ¬ s.badBounds) :
    0.0 < s.minScale ∧ s.minScale ≤ s.maxScale := by
  simpa [badBounds] using h

theorem sanitized_minScale_pos (h : (0.0 : α) < 0.1) (s : ViewportSettings α) : 0.0 < s.sanitized.minScale := by
  unfold sanitized
  dsimp only
  by_cases hbad : s.badBounds
  · rw [if_pos hbad]
    exact h
  · rw [if_neg hbad]
    exact (bounds_of_not_badBounds hbad).1

theorem sanitized_scales (h : (0.1 : α) ≤ 4.0) (s : ViewportSettings α) :
    s.sanitized.minScale ≤ s.sanitized.maxScale := by
  unfold sanitized
  dsimp only
  by_cases hbad : s.badBounds
  · rw [if_pos hbad, if_pos hbad]
    exact h
  · rw [if_neg hbad, if_neg hbad]
    exact (bounds_of_not_badBounds hbad).2

end ViewportSettings

/-! ## Binary32 -/

theorem clamp_unit_zero : Scalar.clamp 0.0 1.0 (0.0 : Float32) = 0.0 :=
  Scalar.clamp_of_not_lt _ _ _ (by decide) (by decide)

theorem clamp_unit_clamp (x : Float32) : Scalar.clamp 0.0 1.0 (Scalar.clamp 0.0 1.0 x) = Scalar.clamp 0.0 1.0 x :=
  Scalar.clamp_clamp _ _ _

theorem clamp_unit_kept (x : Float32) : Scalar.Kept 0.0 1.0 (Scalar.clamp 0.0 1.0 x) :=
  Scalar.clamp_kept _ _ _ (by decide) (by decide) (by decide) (by decide)

theorem Settings.sanitized_clamped (s : Settings Float32) : s.sanitized.Clamped where
  alphaMin := Scalar.clamp_kept _ _ _ (by decide) (by decide) (by decide) (by decide)
  alphaDecay := Scalar.clamp_kept _ _ _ (by decide) (by decide) (by decide) (by decide)
  velocityRetention := clamp_unit_kept _
  collisionStrength := clamp_unit_kept _
  collisionIterations := ⟨Nat.le_min.mpr ⟨Nat.le_max_right _ _, by decide⟩, Nat.min_le_right _ _⟩
  centerStrength := clamp_unit_kept _
  dragAlphaTarget := clamp_unit_kept _
  radialStrength := clamp_unit_kept _
  minimapScale := Scalar.clamp_kept _ _ _ (by decide) (by decide) (by decide) (by decide)

end CallAtlas
