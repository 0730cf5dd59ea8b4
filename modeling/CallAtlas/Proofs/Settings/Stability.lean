import CallAtlas.Engine.Basic
import CallAtlas.Loading
import CallAtlas.Proofs.Number.Comparison

/-! Settings that have been sanitized are not changed by sanitizing them again.

Each rule that repairs a setting takes what it gives as it is, and no rule has to know anything about the order for
that. So this holds for all scalars (`Settings.sanitized_sanitized`), also for bit patterns of which many are no numbers.
For binary32 floats `Settings.Repaired` says which settings stay as they are. -/

namespace CallAtlas

set_option autoImplicit false

open Scalar

section

variable {α : Type}

/-! ## Rules -/

namespace Scalar

theorem larger_larger [Scalar α] (x y : α) : larger (larger x y) y = larger x y := by
  unfold larger
  by_cases hx : isNaN x
  · simp [hx]
  · by_cases hlt : x < y <;> simp [hx, hlt]

theorem replaced_replaced (bad : α → Bool) (standard x : α) :
    (if bad (if bad x then standard else x) then standard else if bad x then standard else x) =
      if bad x then standard else x := by
  by_cases hx : bad x <;> simp [hx]

end Scalar

/-! ## Sections -/

variable [Scalar α]

theorem SimulationSettings.sanitized_sanitized (s : SimulationSettings α) : s.sanitized.sanitized = s.sanitized := by
  simp only [sanitized, clamp_clamp, larger_larger, mk.injEq, true_and]
  refine ⟨?_, ?_, ?_⟩
  · exact replaced_replaced (fun x => !isFinite x || decide (x ≤ 0.0)) 0.9 s.theta
  · omega
  · omega

theorem LayoutSettings.sanitized_sanitized (s : LayoutSettings α) : s.sanitized.sanitized = s.sanitized := by
  simp only [sanitized, clamp_clamp, larger_larger]

theorem ViewportSettings.sanitized_sanitized (s : ViewportSettings α) : s.sanitized.sanitized = s.sanitized := by
  by_cases hbad : s.badBounds
  · -- Both bounds are the standard ones, and would be replaced by themselves.
    simp [sanitized, hbad, larger_larger]
  · have hgood : ¬ s.sanitized.badBounds := by
      rw [badBounds, show s.sanitized.minScale = s.minScale from if_neg hbad,
        show s.sanitized.maxScale = s.maxScale from if_neg hbad]
      exact hbad
    have hsame (t : ViewportSettings α) (ht : ¬ t.badBounds) :
        t.sanitized = { t with width := larger t.width 1.0, height := larger t.height 1.0 } := by
      simp [sanitized, ht]
    rw [hsame _ hgood, hsame s hbad]
    simp only [larger_larger]

theorem MinimapSettings.sanitized_sanitized (s : MinimapSettings α) : s.sanitized.sanitized = s.sanitized := by
  simp only [sanitized, clamp_clamp, larger_larger]

theorem Settings.sanitized_sanitized (s : Settings α) : s.sanitized.sanitized = s.sanitized := by
  simp only [sanitized, SimulationSettings.sanitized_sanitized, LayoutSettings.sanitized_sanitized,
    ViewportSettings.sanitized_sanitized, MinimapSettings.sanitized_sanitized]

/-! ## Settings that need no repair -/

theorem Scalar.Kept.clamp_eq {lo hi x : α} (h : Kept lo hi x) : clamp lo hi x = x :=
  clamp_of_not_lt lo hi x h.notBelow h.notAbove

/-- Settings that need no repair. One that is clamped may still be no number, and the charge may be anything. -/
structure Settings.Repaired (s : Settings α) : Prop extends s.Clamped where
  linkDistance : 1.0 ≤ s.simulation.linkDistance
  theta : isFinite s.simulation.theta = true ∧ 0.0 < s.simulation.theta
  collisionRadius : 0.0 ≤ s.simulation.collisionRadius
  maxTicksPerFrame : 1 ≤ s.simulation.maxTicksPerFrame
  treeBreadthSpacing : 1.0 ≤ s.layout.treeBreadthSpacing
  treeLevelSpacing : 1.0 ≤ s.layout.treeLevelSpacing
  radialLinkDistance : 1.0 ≤ s.layout.radialLinkDistance
  radialRingSpacing : 1.0 ≤ s.layout.radialRingSpacing
  scales : 0.0 < s.viewport.minScale ∧ s.viewport.minScale ≤ s.viewport.maxScale
  width : 1.0 ≤ s.viewport.width
  height : 1.0 ≤ s.viewport.height
  markerRadius : 0.5 ≤ s.minimap.markerRadius

end

/-! ## Binary32 -/

namespace SimulationSettings

theorem theta_unusable_iff (x : Float32) :
    (!isFinite x || decide (x ≤ 0.0)) = true ↔ ¬ (isFinite x = true ∧ 0.0 < x) := by
  by_cases hfinite : isFinite x = true
  · have hnumber : x.isNaN = false := Binary32.isNaN_of_isFinite hfinite
    have hle : x ≤ 0.0 ↔ ¬ 0.0 < x := ⟨Binary32.not_lt_of_le, Binary32.le_of_not_lt (by decide) hnumber⟩
    simp [hfinite, hle]
  · simp [hfinite]

theorem sanitized_theta (s : SimulationSettings Float32) :
    isFinite s.sanitized.theta = true ∧ 0.0 < s.sanitized.theta := by
  unfold sanitized
  dsimp only
  split
  · decide
  · next h => exact not_not.mp (mt (theta_unusable_iff s.theta).mpr h)

end SimulationSettings

namespace Settings

theorem sanitized_repaired (s : Settings Float32) : s.sanitized.Repaired where
  toClamped := s.sanitized_clamped
  linkDistance := Binary32.le_larger (by decide) _
  theta := s.simulation.sanitized_theta
  collisionRadius := Binary32.le_larger (by decide) _
  maxTicksPerFrame := le_max_right _ _
  treeBreadthSpacing := Binary32.le_larger (by decide) _
  treeLevelSpacing := Binary32.le_larger (by decide) _
  radialLinkDistance := Binary32.le_larger (by decide) _
  radialRingSpacing := Binary32.le_larger (by decide) _
  scales := ⟨s.viewport.sanitized_minScale_pos (by decide), s.viewport.sanitized_scales (by decide)⟩
  width := Binary32.le_larger (by decide) _
  height := Binary32.le_larger (by decide) _
  markerRadius := Binary32.le_larger (by decide) _

theorem Repaired.sanitized_eq {s : Settings Float32} (h : s.Repaired) : s.sanitized = s := by
  have htheta : ¬ (!isFinite s.simulation.theta || decide (s.simulation.theta ≤ 0.0)) = true := by
    rw [SimulationSettings.theta_unusable_iff, not_not]
    exact h.theta
  have hscales : ¬ s.viewport.badBounds := by
    simpa [ViewportSettings.badBounds] using h.scales
  have hiterations : min (max s.simulation.collisionIterations 1) 8 = s.simulation.collisionIterations := by
    have := h.collisionIterations
    omega
  simp only [sanitized, SimulationSettings.sanitized, LayoutSettings.sanitized, ViewportSettings.sanitized,
    MinimapSettings.sanitized, if_neg htheta, if_neg hscales, hiterations, max_eq_left h.maxTicksPerFrame,
    h.alphaMin.clamp_eq, h.alphaDecay.clamp_eq, h.velocityRetention.clamp_eq, h.collisionStrength.clamp_eq,
    h.centerStrength.clamp_eq, h.dragAlphaTarget.clamp_eq, h.radialStrength.clamp_eq, h.minimapScale.clamp_eq,
    Binary32.larger_of_le h.linkDistance, Binary32.larger_of_le h.collisionRadius,
    Binary32.larger_of_le h.treeBreadthSpacing, Binary32.larger_of_le h.treeLevelSpacing,
    Binary32.larger_of_le h.radialLinkDistance, Binary32.larger_of_le h.radialRingSpacing,
    Binary32.larger_of_le h.width, Binary32.larger_of_le h.height, Binary32.larger_of_le h.markerRadius]

theorem sanitized_eq_self_iff (s : Settings Float32) : s.sanitized = s ↔ s.Repaired := by
  constructor
  · intro h
    rw [← h]
    exact s.sanitized_repaired
  · exact Repaired.sanitized_eq

theorem load_eq_ok_iff {path : String} {bytes : Option ByteArray} {s : Settings Float32} :
    load path bytes = .ok s ↔ ∃ text asked, textOf bytes = .ok text ∧ parse text = .ok asked ∧ asked.sanitized = s := by
  unfold load
  split
  · next herror => simp [herror]
  · next text htext =>
    split
    · next asked hasked => simp [htext, hasked]
    · next herror => simp [htext, herror]

/-- Settings from a file are sanitized ones. -/
theorem sanitized_of_load {path : String} {bytes : Option ByteArray} {s : Settings Float32}
    (h : load path bytes = .ok s) : s.sanitized = s := by
  obtain ⟨-, asked, -, -, rfl⟩ := load_eq_ok_iff.mp h
  exact asked.sanitized_sanitized

/-- Sanitizing twice is sanitizing once, whatever the scalars are. The binary32 settings that stay as they are are the
repaired ones, and an engine takes settings from a file as they are. -/
theorem sanitized_stable :
    (∀ {α : Type} [Scalar α] (s : Settings α), s.sanitized.sanitized = s.sanitized) ∧
    (∀ s : Settings Float32, s.sanitized = s ↔ s.Repaired) ∧
    ∀ path bytes, (load path bytes).map (fun s => (Engine.ofSettings s).settings) = load path bytes := by
  refine ⟨sanitized_sanitized, sanitized_eq_self_iff, fun path bytes => ?_⟩
  cases h : load path bytes with
  | error e => rfl
  | ok s => exact congrArg Except.ok (sanitized_of_load h)

end Settings

end CallAtlas
