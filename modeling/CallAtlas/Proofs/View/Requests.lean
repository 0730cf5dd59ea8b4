import CallAtlas.Proofs.Engine.Run
import CallAtlas.Proofs.History
import CallAtlas.Proofs.Number.Comparison

/-! What requests make of a viewport, whatever numbers they bring.

* `perform_eq`: a request returns, and `Request.outcome` is what it returns. Apart from a resize and a reset it asks for
  a transform, of which the viewport takes the shift if it is finite and the scale as it is kept between the bounds.
* `performAll_history`: what one more request keeps, told all requests so far, holds at the end of every run.
* `performAll_sound`: shift, scale and size stay usable.
* `performAll_inBounds_iff`: the scale is between the bounds unless it is still the 1 of the start or of a reset. -/

namespace CallAtlas.Viewport

set_option autoImplicit false

variable {α : Type} [Scalar α]

/-! ## Requests -/

/-- What can be asked of a viewport. -/
inductive Request (α : Type) where
  | resize (size : Vec α)
  | setTransform (t : Transform α)
  | panBy (delta : Vec α)
  | zoomAt (factor : α) (anchor : Vec α)
  | setScale (scale : α)
  | focus (world : Vec α)
  | reset

def perform (v : Viewport α) : Request α → Except Fault (Viewport α)
  | .resize size => .ok (v.resize size)
  | .setTransform t => v.setTransform t
  | .panBy delta => v.panBy delta
  | .zoomAt factor anchor => v.zoomAt factor anchor
  | .setScale scale => v.setScale scale
  | .focus world => v.focus world
  | .reset => .ok v.reset

/-- One request after the other. -/
def performAll (v : Viewport α) (requests : List (Request α)) : Except Fault (Viewport α) :=
  requests.foldlM perform v

/-! ## One request -/

/-- The scale that a viewport keeps when it is told to take one. -/
def keptScale (v : Viewport α) (scale : α) : α :=
  if Scalar.isNaN scale then v.transform.scale else Scalar.clamp v.minScale v.maxScale scale

/-- The transform that a viewport has when it was told to take one. -/
def keptTransform (v : Viewport α) (t : Transform α) : Transform α :=
  ⟨if t.shift.isFinite then t.shift else v.transform.shift, v.keptScale t.scale⟩

/-- The transform that zooming asks for. -/
def zoomed (v : Viewport α) (factor : α) (anchor : Vec α) : Transform α :=
  let scale := v.keptScale (v.transform.scale * factor)
  ⟨shiftTo anchor (v.transform.invert anchor) scale, scale⟩

/-- The transform that a request asks for. -/
def wanted (v : Viewport α) : Request α → Transform α
  | .resize _ => v.transform
  | .setTransform t => t
  | .panBy delta => ⟨v.transform.shift + delta, v.transform.scale⟩
  | .zoomAt factor anchor => v.zoomed factor anchor
  | .setScale scale => v.zoomed (scale / v.transform.scale) v.center
  | .focus world => ⟨shiftTo v.center world v.transform.scale, v.transform.scale⟩
  | .reset => .identity

/-- The viewport after a request. -/
def outcome (v : Viewport α) : Request α → Viewport α
  | .resize size => v.resize size
  | .reset => v.reset
  | request => { v with transform := v.keptTransform (v.wanted request) }

theorem clampScale_eq (v : Viewport α) (hv : v.InOrder) (scale : α) : v.clampScale scale = .ok (v.keptScale scale) := by
  unfold clampScale keptScale
  split
  · rfl
  · exact if_pos hv

theorem setTransform_eq (v : Viewport α) (hv : v.InOrder) (t : Transform α) :
    v.setTransform t = .ok { v with transform := v.keptTransform t } := by
  rw [setTransform, v.clampScale_eq hv]
  rfl

theorem zoomAt_eq (v : Viewport α) (hv : v.InOrder) (factor : α) (anchor : Vec α) :
    v.zoomAt factor anchor = .ok { v with transform := v.keptTransform (v.zoomed factor anchor) } := by
  rw [zoomAt, v.clampScale_eq hv]
  exact v.setTransform_eq hv _

theorem perform_eq (v : Viewport α) (hv : v.InOrder) (request : Request α) :
    v.perform request = .ok (v.outcome request) := by
  cases request with
  | resize size => rfl
  | setTransform t => exact v.setTransform_eq hv t
  | panBy delta => exact v.setTransform_eq hv _
  | zoomAt factor anchor => exact v.zoomAt_eq hv factor anchor
  | setScale scale => exact v.zoomAt_eq hv _ _
  | focus world => exact v.setTransform_eq hv _
  | reset => rfl

theorem outcome_bounds (v : Viewport α) (request : Request α) :
    (v.outcome request).minScale = v.minScale ∧ (v.outcome request).maxScale = v.maxScale := by
  cases request <;> exact ⟨rfl, rfl⟩

theorem outcome_inOrder (v : Viewport α) (hv : v.InOrder) (request : Request α) : (v.outcome request).InOrder := by
  obtain ⟨hmin, hmax⟩ := v.outcome_bounds request
  rw [InOrder, hmin, hmax]
  exact hv

/-! ## Runs -/

/-- What one more request keeps holds at the end of a run, and the run returns. -/
theorem performAll_history (v : Viewport α) (hv : v.InOrder) (P : List (Request α) → Viewport α → Prop)
    (hstart : P [] v)
    (hstep : ∀ past w request, w.InOrder → P past w → P (past ++ [request]) (w.outcome request))
    (requests : List (Request α)) :
    ∃ w, v.performAll requests = .ok w ∧ w.InOrder ∧ P requests w := by
  refine foldlM_history perform (fun past w => w.InOrder ∧ P past w) ⟨hv, hstart⟩ ?_ requests
  rintro past w - ⟨hw, hP⟩ request
  exact ⟨w.outcome request, w.perform_eq hw request, w.outcome_inOrder hw request, hstep past w request hw hP⟩

/-! ## Usable viewports -/

theorem isFinite_iff (a : Vec Float32) : a.isFinite = true ↔ a.x.isFinite = true ∧ a.y.isFinite = true := by
  rw [Vec.isFinite, Bool.and_eq_true]
  rfl

theorem identity_shift_isFinite : (Transform.identity : Transform Float32).shift.isFinite = true := by decide

theorem identity_scale_pos : 0.0 < (Transform.identity : Transform Float32).scale := by decide

theorem identity_scale_isNaN : (Transform.identity : Transform Float32).scale.isNaN = false := by decide

/-- Everything about a viewport can be computed with. -/
structure Sound (v : Viewport Float32) : Prop where
  bounds : 0.0 < v.minScale ∧ v.minScale ≤ v.maxScale
  shift : v.transform.shift.isFinite = true
  scale : 0.0 < v.transform.scale
  size : 1.0 ≤ v.size.x ∧ 1.0 ≤ v.size.y

theorem ofSettings_sound (s : ViewportSettings Float32) : (ofSettings s.sanitized).Sound where
  bounds := ⟨s.sanitized_minScale_pos (by decide), s.sanitized_scales (by decide)⟩
  shift := identity_shift_isFinite
  scale := identity_scale_pos
  size := ⟨Binary32.le_larger (by decide) s.width, Binary32.le_larger (by decide) s.height⟩

theorem keptScale_pos (v : Viewport Float32) (hv : v.Sound) (scale : Float32) : 0.0 < v.keptScale scale := by
  unfold keptScale
  split
  · exact hv.scale
  · next h =>
    rw [Binary32.isNaN_eq, Bool.not_eq_true] at h
    exact Binary32.lt_of_lt_of_le hv.bounds.1 (Binary32.clamp_mem hv.bounds.2 h).1

theorem Sound.take {v : Viewport Float32} (hv : v.Sound) (t : Transform Float32) :
    ({ v with transform := v.keptTransform t } : Viewport Float32).Sound where
  bounds := hv.bounds
  shift := by
    rw [keptTransform]
    split
    · assumption
    · exact hv.shift
  scale := v.keptScale_pos hv t.scale
  size := hv.size

theorem Sound.outcome {v : Viewport Float32} (hv : v.Sound) (request : Request Float32) :
    (v.outcome request).Sound := by
  cases request with
  | resize size =>
    exact ⟨hv.bounds, hv.shift, hv.scale, Binary32.le_larger (by decide) _, Binary32.le_larger (by decide) _⟩
  | reset => exact ⟨hv.bounds, identity_shift_isFinite, identity_scale_pos, hv.size⟩
  | setTransform | panBy | zoomAt | setScale | focus => exact hv.take _

/-- A shift that is not finite is not taken over, and a finite one is as it was asked for. -/
theorem outcome_shift (v : Viewport Float32) (request : Request Float32) :
    (v.outcome request).transform.shift =
      if (v.wanted request).shift.isFinite then (v.wanted request).shift else v.transform.shift := by
  cases request with
  | resize size => exact (ite_self _).symm
  | reset => exact (if_pos identity_shift_isFinite).symm
  | setTransform | panBy | zoomAt | setScale | focus => rfl

/-- No numbers that requests bring can spoil a viewport: its shift stays finite, its scale positive and its sides at
least 1, and a request that asks for a shift with a component that is not finite leaves both components alone. -/
theorem performAll_sound (s : ViewportSettings Float32) (requests : List (Request Float32)) :
    ∃ v, (ofSettings s.sanitized).performAll requests = .ok v ∧
      (v.transform.shift.x.isFinite = true ∧ v.transform.shift.y.isFinite = true) ∧
      (0.0 < v.transform.scale ∧ v.transform.scale.isNaN = false) ∧
      (1.0 ≤ v.size.x ∧ v.size.x.isNaN = false ∧ 1.0 ≤ v.size.y ∧ v.size.y.isNaN = false) ∧
      ∀ request, ∃ v', v.perform request = .ok v' ∧
        v'.transform.shift =
          if (v.wanted request).shift.x.isFinite ∧ (v.wanted request).shift.y.isFinite then (v.wanted request).shift
          else v.transform.shift := by
  have hstart := ofSettings_sound s
  obtain ⟨v, hrun, horder, hv⟩ := (ofSettings s.sanitized).performAll_history hstart.bounds.2 (fun _ v => v.Sound)
    hstart (fun _ _ request _ hw => hw.outcome request) requests
  have hscale := (Binary32.lt_iff _ _).mp hv.scale
  have hwidth := (Binary32.le_iff _ _).mp hv.size.1
  have hheight := (Binary32.le_iff _ _).mp hv.size.2
  refine ⟨v, hrun, (isFinite_iff _).mp hv.shift, ⟨hv.scale, hscale.1.2⟩,
    ⟨hv.size.1, hwidth.1.2, hv.size.2, hheight.1.2⟩, fun request => ?_⟩
  refine ⟨v.outcome request, v.perform_eq horder request, ?_⟩
  rw [outcome_shift]
  exact if_congr (isFinite_iff _) rfl rfl

/-! ## Scales between the bounds -/

def InBounds (v : Viewport α) : Prop := v.minScale ≤ v.transform.scale ∧ v.transform.scale ≤ v.maxScale

/-- Whether a request puts the scale between the bounds wherever it was before. -/
def Request.settles : Request α → Bool
  | .resize _ => false
  | .setTransform t => !Scalar.isNaN t.scale
  | .reset => false
  | _ => true

/-- Some request has settled the scale, and no reset came behind it. -/
def Settled (requests : List (Request α)) : Prop :=
  ∃ before request after, requests = before ++ request :: after ∧ request.settles = true ∧ .reset ∉ after

theorem settled_iff (requests : List (Request α)) :
    Settled requests ↔
      Since (fun _ request => request.settles = true) (fun _ request => request = .reset) requests := by
  refine exists_congr fun before => exists_congr fun request => exists_congr fun after => ?_
  refine and_congr_right fun _ => and_congr_right fun _ => ?_
  constructor
  · rintro hreset between later rest rfl rfl
    exact hreset (List.mem_append_right between List.mem_cons_self)
  · intro hlater hreset
    obtain ⟨between, rest, rfl⟩ := List.append_of_mem hreset
    exact hlater between .reset rest rfl rfl

theorem not_settled_nil : ¬ Settled ([] : List (Request α)) := by
  rw [settled_iff]
  exact not_since_nil _ _

theorem settled_append_singleton (past : List (Request α)) (last : Request α) :
    Settled (past ++ [last]) ↔ last.settles = true ∨ Settled past ∧ last ≠ .reset := by
  rw [settled_iff, settled_iff]
  exact since_append_singleton _ _ past last

theorem kept_inBounds (v : Viewport Float32) (hv : v.InOrder) (t : Transform Float32) (ht : t.scale.isNaN = false) :
    ({ v with transform := v.keptTransform t } : Viewport Float32).InBounds := by
  have hkept : v.keptScale t.scale = Scalar.clamp v.minScale v.maxScale t.scale := by
    rw [keptScale, Binary32.isNaN_eq, ht]
    rfl
  have hmem := Binary32.clamp_mem hv ht
  rw [← hkept] at hmem
  exact hmem

theorem keptScale_isNaN (v : Viewport Float32) (hv : v.InOrder) (hscale : v.transform.scale.isNaN = false)
    (scale : Float32) : (v.keptScale scale).isNaN = false := by
  unfold keptScale
  split
  · exact hscale
  · next h =>
    rw [Binary32.isNaN_eq, Bool.not_eq_true] at h
    exact ((Binary32.le_iff _ _).mp (Binary32.clamp_mem hv h).1).1.2

/-- The scale after requests from the start: it is a number, it is between the bounds once it has settled, and it is 1
until then. -/
structure Tracked (s : ViewportSettings Float32) (past : List (Request Float32)) (v : Viewport Float32) : Prop where
  minScale : v.minScale = s.minScale
  maxScale : v.maxScale = s.maxScale
  number : v.transform.scale.isNaN = false
  inBounds : Settled past → v.InBounds
  one : ¬ Settled past → v.transform.scale = 1.0

theorem ofSettings_tracked (s : ViewportSettings Float32) : Tracked s [] (ofSettings s) :=
  ⟨rfl, rfl, identity_scale_isNaN, fun h => absurd h not_settled_nil, fun _ => rfl⟩

/-- A request that settles the scale asks for one that is a number. -/
theorem wanted_isNaN (v : Viewport Float32) (hv : v.InOrder) (hscale : v.transform.scale.isNaN = false)
    (request : Request Float32) (h : request.settles = true) : (v.wanted request).scale.isNaN = false := by
  cases request with
  | resize size => exact absurd h Bool.false_ne_true
  | reset => exact absurd h Bool.false_ne_true
  | setTransform t =>
    rw [Request.settles, Bool.not_eq_true', Binary32.isNaN_eq] at h
    exact h
  | panBy delta => exact hscale
  | focus world => exact hscale
  | zoomAt factor anchor => exact v.keptScale_isNaN hv hscale _
  | setScale scale => exact v.keptScale_isNaN hv hscale _

theorem outcome_of_settles (v : Viewport α) (request : Request α) (h : request.settles = true) :
    v.outcome request = { v with transform := v.keptTransform (v.wanted request) } := by
  cases request with
  | resize size => exact absurd h Bool.false_ne_true
  | reset => exact absurd h Bool.false_ne_true
  | setTransform | panBy | zoomAt | setScale | focus => rfl

theorem outcome_scale_of_not_settles (v : Viewport α) (request : Request α) (h : ¬ request.settles = true)
    (hreset : request ≠ .reset) : (v.outcome request).transform.scale = v.transform.scale := by
  cases request with
  | resize size => rfl
  | reset => exact absurd rfl hreset
  | setTransform t =>
    rw [Request.settles, Bool.not_eq_true', Bool.not_eq_false] at h
    exact if_pos h
  | panBy | zoomAt | setScale | focus => exact absurd rfl h

theorem Tracked.outcome {s : ViewportSettings Float32} {past : List (Request Float32)} {v : Viewport Float32}
    (hv : Tracked s past v) (horder : v.InOrder) (request : Request Float32) :
    Tracked s (past ++ [request]) (v.outcome request) := by
  obtain ⟨hmin, hmax⟩ := v.outcome_bounds request
  rw [hv.minScale] at hmin
  rw [hv.maxScale] at hmax
  by_cases hsettles : request.settles = true
  · have hin : (v.outcome request).InBounds := by
      rw [v.outcome_of_settles request hsettles]
      exact v.kept_inBounds horder _ (v.wanted_isNaN horder hv.number request hsettles)
    have hsettled : Settled (past ++ [request]) := (settled_append_singleton past request).mpr (Or.inl hsettles)
    exact ⟨hmin, hmax, ((Binary32.le_iff _ _).mp hin.1).1.2, fun _ => hin, fun h => absurd hsettled h⟩
  · by_cases hreset : request = .reset
    · subst hreset
      have hnot : ¬ Settled (past ++ [.reset]) := by
        simp [settled_append_singleton, Request.settles]
      exact ⟨hmin, hmax, identity_scale_isNaN, fun h => absurd h hnot, fun _ => rfl⟩
    · have hscale := v.outcome_scale_of_not_settles request hsettles hreset
      have hsame : Settled (past ++ [request]) ↔ Settled past := by
        simp [settled_append_singleton, hsettles, hreset]
      refine ⟨hmin, hmax, hscale ▸ hv.number, fun h => ?_, fun h => ?_⟩
      · have hin := hv.inBounds (hsame.mp h)
        rw [InBounds, hv.minScale, hv.maxScale] at hin
        rw [InBounds, hmin, hmax, hscale]
        exact hin
      · exact hscale.trans (hv.one fun hpast => h (hsame.mpr hpast))

/-- The scale is between the bounds exactly if 1 is, or if some request has settled it since the start and since the
last reset. So it never leaves the bounds, whatever is requested, exactly if 1 is between them. -/
theorem performAll_inBounds_iff (s : ViewportSettings Float32) :
    (∀ requests, ∃ v, (ofSettings s.sanitized).performAll requests = .ok v ∧
      (s.sanitized.minScale ≤ v.transform.scale ∧ v.transform.scale ≤ s.sanitized.maxScale ↔
        s.sanitized.minScale ≤ 1.0 ∧ 1.0 ≤ s.sanitized.maxScale ∨ Settled requests)) ∧
    ((∀ requests, ∃ v, (ofSettings s.sanitized).performAll requests = .ok v ∧
        s.sanitized.minScale ≤ v.transform.scale ∧ v.transform.scale ≤ s.sanitized.maxScale) ↔
      s.sanitized.minScale ≤ 1.0 ∧ 1.0 ≤ s.sanitized.maxScale) := by
  have hiff : ∀ requests, ∃ v, (ofSettings s.sanitized).performAll requests = .ok v ∧
      (s.sanitized.minScale ≤ v.transform.scale ∧ v.transform.scale ≤ s.sanitized.maxScale ↔
        s.sanitized.minScale ≤ 1.0 ∧ 1.0 ≤ s.sanitized.maxScale ∨ Settled requests) := by
    intro requests
    obtain ⟨v, hrun, -, hv⟩ := (ofSettings s.sanitized).performAll_history (s.sanitized_scales (by decide))
      (Tracked s.sanitized) (ofSettings_tracked s.sanitized) (fun _ _ request hw h => h.outcome hw request) requests
    refine ⟨v, hrun, ?_⟩
    by_cases hsettled : Settled requests
    · have hin := hv.inBounds hsettled
      rw [InBounds, hv.minScale, hv.maxScale] at hin
      exact iff_of_true hin (Or.inr hsettled)
    · rw [hv.one hsettled, or_iff_left hsettled]
  refine ⟨hiff, fun hall => ?_, fun hone requests => ?_⟩
  · obtain ⟨v, hrun, hv⟩ := hiff []
    obtain ⟨v', hrun', hin⟩ := hall []
    rw [hrun, Except.ok.injEq] at hrun'
    subst hrun'
    exact (hv.mp hin).resolve_right not_settled_nil
  · obtain ⟨v, hrun, hv⟩ := hiff requests
    exact ⟨v, hrun, hv.mpr (Or.inl hone)⟩

/-- Between bounds of 2 and 4 a viewport starts with a scale of 1, and a resize leaves it there. -/
theorem start_outside_bounds :
    let s : ViewportSettings Float32 := ⟨2.0, 4.0, 960.0, 640.0⟩
    (s.sanitized.minScale = 2.0 ∧ s.sanitized.maxScale = 4.0) ∧
    (∃ v, (ofSettings s.sanitized).performAll [.resize ⟨960.0, 640.0⟩] = .ok v ∧ v.transform.scale = 1.0 ∧
      ¬ (s.sanitized.minScale ≤ v.transform.scale ∧ v.transform.scale ≤ s.sanitized.maxScale)) := by
  refine ⟨⟨by decide, by decide⟩, _, rfl, rfl, ?_⟩
  decide

end CallAtlas.Viewport
