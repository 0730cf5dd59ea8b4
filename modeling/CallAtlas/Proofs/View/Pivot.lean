import Mathlib
import CallAtlas.Proofs.Number.Exact
import CallAtlas.Proofs.View.Requests

/-! Zooming pivots around a point of the screen, without rounding.

The scale that a zoom asks for is kept between the bounds before the shift is computed from it, and keeping it between
them once more changes nothing. So after every zoom the transform is `pivoted`: it shows the same point of the world
under the anchor, and everything else about it follows from its scale (`performAll_zooms`). -/

namespace CallAtlas.Viewport

set_option autoImplicit false

open Scalar

/-! ## Transforms around an anchor -/

/-- The transform of a given scale that shows a point of the world at a point of the screen. -/
noncomputable def pivoted (screen world : Vec ℝ) (scale : ℝ) : Transform ℝ := ⟨shiftTo screen world scale, scale⟩

theorem invert_pivoted (screen world : Vec ℝ) {scale : ℝ} (h : scale ≠ 0) :
    (pivoted screen world scale).invert screen = world := by
  ext <;> simp [pivoted, shiftTo, Transform.invert, h]

theorem pivoted_invert (screen : Vec ℝ) {t : Transform ℝ} (h : t.scale ≠ 0) :
    pivoted screen (t.invert screen) t.scale = t := by
  obtain ⟨⟨x, y⟩, scale⟩ := t
  have hscale : scale ≠ 0 := h
  simp [pivoted, shiftTo, Transform.invert, hscale]

/-! ## Positive scales -/

/-- The scale and the least scale are positive, and the bounds are in order. -/
structure Positive (v : Viewport ℝ) : Prop where
  least : 0 < v.minScale
  inOrder : v.InOrder
  scale : 0 < v.transform.scale

theorem keptScale_real (v : Viewport ℝ) (scale : ℝ) : v.keptScale scale = clamp v.minScale v.maxScale scale := by
  rw [keptScale, isNaN_real, if_neg Bool.false_ne_true]

theorem Positive.keptScale_pos {v : Viewport ℝ} (hv : v.Positive) (scale : ℝ) : 0 < v.keptScale scale := by
  obtain ⟨kept, hkept, heq⟩ := exact_real.clamp_mem hv.inOrder (isNaN_real scale)
  have hsame : v.keptScale scale = kept := (v.keptScale_real scale).trans heq
  rw [hsame]
  exact hv.least.trans_le hkept.1

theorem identity_scale_pos_real : 0 < (Transform.identity : Transform ℝ).scale := by
  norm_num [Transform.identity]

theorem ofSettings_positive (s : ViewportSettings ℝ) : (ofSettings s.sanitized).Positive where
  least := by
    have hpos := s.sanitized_minScale_pos (by norm_num)
    rwa [zero_real] at hpos
  inOrder := s.sanitized_scales (by norm_num)
  scale := identity_scale_pos_real

theorem Positive.outcome {v : Viewport ℝ} (hv : v.Positive) (request : Request ℝ) : (v.outcome request).Positive := by
  obtain ⟨hmin, hmax⟩ := v.outcome_bounds request
  refine ⟨hmin ▸ hv.least, v.outcome_inOrder hv.inOrder request, ?_⟩
  cases request with
  | resize size => exact hv.scale
  | reset => exact identity_scale_pos_real
  | setTransform | panBy | zoomAt | setScale | focus => exact hv.keptScale_pos _

/-! ## Zooms at one anchor -/

/-- A viewport turned to another scale, around an anchor. -/
noncomputable def turnedTo (v : Viewport ℝ) (anchor : Vec ℝ) (scale : ℝ) : Viewport ℝ :=
  { v with transform := pivoted anchor (v.transform.invert anchor) scale }

theorem turnedTo_self {v : Viewport ℝ} (hv : v.Positive) (anchor : Vec ℝ) :
    v.turnedTo anchor v.transform.scale = v := by
  rw [turnedTo, pivoted_invert anchor hv.scale.ne']

theorem invert_turnedTo (v : Viewport ℝ) (anchor : Vec ℝ) {scale : ℝ} (h : scale ≠ 0) :
    (v.turnedTo anchor scale).transform.invert anchor = v.transform.invert anchor :=
  invert_pivoted anchor _ h

theorem turnedTo_turnedTo (v : Viewport ℝ) (anchor : Vec ℝ) {scale : ℝ} (h : scale ≠ 0) (scale' : ℝ) :
    (v.turnedTo anchor scale).turnedTo anchor scale' = v.turnedTo anchor scale' := by
  rw [turnedTo, invert_turnedTo v anchor h]
  rfl

theorem Positive.turnedTo {v : Viewport ℝ} (hv : v.Positive) (anchor : Vec ℝ) {scale : ℝ} (h : 0 < scale) :
    (v.turnedTo anchor scale).Positive :=
  ⟨hv.least, hv.inOrder, h⟩

theorem keptScale_turnedTo (v : Viewport ℝ) (anchor : Vec ℝ) (scale asked : ℝ) :
    (v.turnedTo anchor scale).keptScale asked = v.keptScale asked := by
  rw [keptScale_real, keptScale_real]
  rfl

/-- Keeping the scale between the bounds for the second time changes nothing. -/
theorem zoomAt_eq_turnedTo (v : Viewport ℝ) (hv : v.InOrder) (factor : ℝ) (anchor : Vec ℝ) :
    v.zoomAt factor anchor = .ok (v.turnedTo anchor (v.keptScale (v.transform.scale * factor))) := by
  rw [v.zoomAt_eq hv, keptTransform, Vec.isFinite_real, if_pos rfl]
  simp only [zoomed, keptScale_real, clamp_clamp, turnedTo, pivoted]

def zooms (anchor : Vec ℝ) (factors : List ℝ) : List (Request ℝ) := factors.map fun factor => .zoomAt factor anchor

theorem performAll_zooms_cons {v : Viewport ℝ} (hv : v.InOrder) (anchor : Vec ℝ) (factor : ℝ) (rest : List ℝ) :
    v.performAll (zooms anchor (factor :: rest)) =
      (v.turnedTo anchor (v.keptScale (v.transform.scale * factor))).performAll (zooms anchor rest) := by
  rw [performAll, zooms, List.map_cons, List.foldlM_cons, perform, v.zoomAt_eq_turnedTo hv]
  rfl

/-- Whatever the factors are, the viewport is turned to some scale around the anchor. -/
theorem performAll_zooms {v : Viewport ℝ} (hv : v.Positive) (anchor : Vec ℝ) (factors : List ℝ) :
    ∃ scale, 0 < scale ∧ v.performAll (zooms anchor factors) = .ok (v.turnedTo anchor scale) := by
  induction factors generalizing v with
  | nil =>
    refine ⟨v.transform.scale, hv.scale, ?_⟩
    rw [turnedTo_self hv]
    rfl
  | cons factor rest ih =>
    have hkept := hv.keptScale_pos (v.transform.scale * factor)
    obtain ⟨scale, hscale, hrest⟩ := ih (hv.turnedTo anchor hkept)
    refine ⟨scale, hscale, ?_⟩
    rw [performAll_zooms_cons hv.inOrder, hrest, turnedTo_turnedTo v anchor hkept.ne']

/-- Every scale that one of these zooms asks for is taken as it is. -/
def Unclamped (v : Viewport ℝ) (anchor : Vec ℝ) (factors : List ℝ) : Prop :=
  ∀ past next rest u, factors = past ++ next :: rest → v.performAll (zooms anchor past) = .ok u →
    u.clampScale (u.transform.scale * next) = .ok (u.transform.scale * next)

theorem unclamped_nil (v : Viewport ℝ) (anchor : Vec ℝ) : v.Unclamped anchor [] := by
  rintro past next rest u hnil -
  simp at hnil

theorem unclamped_cons_iff {v : Viewport ℝ} (hv : v.InOrder) (anchor : Vec ℝ) (factor : ℝ) (rest : List ℝ) :
    v.Unclamped anchor (factor :: rest) ↔
      v.keptScale (v.transform.scale * factor) = v.transform.scale * factor ∧
        (v.turnedTo anchor (v.transform.scale * factor)).Unclamped anchor rest := by
  constructor
  · intro h
    have hfirst : v.keptScale (v.transform.scale * factor) = v.transform.scale * factor := by
      have hclamp := h [] factor rest v rfl rfl
      rwa [v.clampScale_eq hv, Except.ok.injEq] at hclamp
    refine ⟨hfirst, fun past next later u hrest hrun => ?_⟩
    refine h (factor :: past) next later u (by rw [hrest, List.cons_append]) ?_
    rw [performAll_zooms_cons hv, hfirst]
    exact hrun
  · rintro ⟨hfirst, hrest⟩ past next later u hfactors hrun
    cases past with
    | nil =>
      obtain ⟨rfl, -⟩ := List.cons.inj hfactors
      obtain rfl : v = u := Except.ok.inj hrun
      rw [v.clampScale_eq hv, hfirst]
    | cons factor' past =>
      obtain ⟨rfl, htail⟩ := List.cons.inj hfactors
      rw [performAll_zooms_cons hv, hfirst] at hrun
      exact hrest past next later u htail hrun

/-- Zooms that are not clamped multiply the scale by the product of their factors. -/
theorem performAll_zooms_of_unclamped {v : Viewport ℝ} (hv : v.Positive) (anchor : Vec ℝ) {factors : List ℝ}
    (h : v.Unclamped anchor factors) :
    v.performAll (zooms anchor factors) = .ok (v.turnedTo anchor (v.transform.scale * factors.prod)) ∧
      (factors ≠ [] → v.keptScale (v.transform.scale * factors.prod) = v.transform.scale * factors.prod) := by
  induction factors generalizing v with
  | nil =>
    rw [List.prod_nil, mul_one, turnedTo_self hv]
    exact ⟨rfl, fun hne => absurd rfl hne⟩
  | cons factor rest ih =>
    obtain ⟨hfirst, hunclamped⟩ := (unclamped_cons_iff hv.inOrder anchor factor rest).mp h
    have hkept := hv.keptScale_pos (v.transform.scale * factor)
    rw [hfirst] at hkept
    obtain ⟨hrun, hlast⟩ := ih (hv.turnedTo anchor hkept) hunclamped
    rw [performAll_zooms_cons hv.inOrder, hfirst, hrun, turnedTo_turnedTo v anchor hkept.ne', List.prod_cons,
      ← mul_assoc]
    refine ⟨rfl, fun _ => ?_⟩
    cases rest with
    | nil => simpa using hfirst
    | cons factor' rest' =>
      rw [keptScale_turnedTo] at hlast
      exact hlast (List.cons_ne_nil _ _)

/-- Without rounding, zooms at one anchor leave the same point of the world under it, whether they are clamped or not.
The transform they end in follows from that point, the anchor and the scale they end at, and if none of them is clamped
it is that of one zoom by the product of the factors. -/
theorem zooms_pivot (s : ViewportSettings ℝ) (requests : List (Request ℝ)) (anchor : Vec ℝ) :
    ∃ v, (ofSettings s.sanitized).performAll requests = .ok v ∧
      ∀ factors : List ℝ, factors ≠ [] → ∃ w, v.performAll (zooms anchor factors) = .ok w ∧
        w.transform.invert anchor = v.transform.invert anchor ∧
        w.transform = pivoted anchor (v.transform.invert anchor) w.transform.scale ∧
        (∀ factors' w', v.performAll (zooms anchor factors') = .ok w' → w'.transform.scale = w.transform.scale →
          w'.transform = w.transform) ∧
        (v.Unclamped anchor factors → v.zoomAt factors.prod anchor = .ok w) := by
  have hstart := ofSettings_positive s
  obtain ⟨v, hrun, -, hv⟩ := (ofSettings s.sanitized).performAll_history hstart.inOrder (fun _ v => v.Positive) hstart
    (fun _ _ request _ hw => hw.outcome request) requests
  refine ⟨v, hrun, fun factors hne => ?_⟩
  obtain ⟨scale, hscale, hzooms⟩ := performAll_zooms hv anchor factors
  refine ⟨_, hzooms, invert_turnedTo v anchor hscale.ne', rfl, fun factors' w' hzooms' hsame => ?_, fun h => ?_⟩
  · obtain ⟨scale', -, hturned⟩ := performAll_zooms hv anchor factors'
    rw [hturned, Except.ok.injEq] at hzooms'
    subst hzooms'
    obtain rfl : scale' = scale := hsame
    rfl
  · obtain ⟨hproduct, hkept⟩ := performAll_zooms_of_unclamped hv anchor h
    rw [v.zoomAt_eq_turnedTo hv.inOrder, hkept hne, ← hproduct, hzooms]

/-- The standard viewport, moved. -/
noncomputable def panned : Viewport ℝ := ⟨⟨⟨30, -12⟩, 1⟩, ⟨960, 640⟩, 0.1, 4⟩

theorem performAll_panned :
    (ofSettings (ViewportSettings.standard : ViewportSettings ℝ).sanitized).performAll [.panBy ⟨30, -12⟩] =
      .ok panned := by
  norm_num [panned, performAll, perform, panBy, setTransform, clampScale, ofSettings, ViewportSettings.standard,
    ViewportSettings.sanitized, ViewportSettings.badBounds, clamp, Transform.identity, Vec.isFinite_real, larger_real,
    bind, Except.bind, pure, Except.pure, Vec.zero]
  ext <;> simp

theorem panned_inOrder : panned.InOrder := by
  norm_num [InOrder, panned]

theorem unclamped_panned (anchor : Vec ℝ) : panned.Unclamped anchor [2, 2] := by
  rw [unclamped_cons_iff panned_inOrder, unclamped_cons_iff (by exact panned_inOrder)]
  refine ⟨?_, ?_, unclamped_nil _ anchor⟩
  · norm_num [keptScale_real, panned, clamp]
  · norm_num [keptScale_real, panned, clamp, turnedTo, pivoted]

/-- Zooms that hit the upper and then the lower bound keep the point under the pointer, and two that hit neither are one
zoom by four. -/
theorem panned_zooms_pivot :
    let anchor : Vec ℝ := ⟨200, 150⟩
    ∃ v w w', (ofSettings (ViewportSettings.standard : ViewportSettings ℝ).sanitized).performAll [.panBy ⟨30, -12⟩] =
        .ok v ∧
      (v.performAll (zooms anchor [100, 0.001]) = .ok w ∧ w.transform.scale = 0.1 ∧
        w.transform.invert anchor = ⟨170, 162⟩) ∧
      v.performAll (zooms anchor [2, 2]) = .ok w' ∧ v.zoomAt 4 anchor = .ok w' := by
  intro anchor
  obtain ⟨v, hrun, hzooms⟩ := zooms_pivot .standard [.panBy ⟨30, -12⟩] anchor
  obtain rfl : panned = v := Except.ok.inj (performAll_panned.symm.trans hrun)
  obtain ⟨w, hw, hinvert, -, -, -⟩ := hzooms [100, 0.001] (by simp)
  obtain ⟨w', hw', -, -, -, honce⟩ := hzooms [2, 2] (by simp)
  have hfour := honce (unclamped_panned anchor)
  rw [show ([2, 2] : List ℝ).prod = 4 by norm_num] at hfour
  refine ⟨panned, w, w', hrun, ⟨hw, ?_, hinvert.trans ?_⟩, hw', hfour⟩
  · rw [performAll_zooms_cons panned_inOrder, performAll_zooms_cons (by exact panned_inOrder)] at hw
    rw [← Except.ok.inj hw]
    norm_num [keptScale_real, panned, clamp, turnedTo, pivoted]
  · norm_num [panned, Transform.invert, anchor]

end CallAtlas.Viewport
