import CallAtlas.Proofs.Number.Exact
import CallAtlas.View.Painting

/-! The frame of the overview against what is on screen, without rounding.

The frame is as large as the visible region, but its corner is the shift, which lies on the screen, where the region has
the shift over the scale. A marker is in the frame exactly if its node would be on screen were nodes shifted before they
are scaled (`contains_iff_onCanvas`), and that is the same for all nodes only if nothing is scaled or nothing is
shifted. -/

namespace CallAtlas.Minimap

set_option autoImplicit false

/-- Within a canvas of the given size, its border included. -/
def OnCanvas (size p : Vec ℝ) : Prop := (0 ≤ p.x ∧ p.x ≤ size.x) ∧ (0 ≤ p.y ∧ p.y ≤ size.y)

/-- Where a node would be painted if it were shifted first and scaled then. -/
noncomputable def shiftedFirst (t : Transform ℝ) (world : Vec ℝ) : Vec ℝ := (world + t.shift) * t.scale

/-- One side of the frame against the same side of the canvas. -/
theorem frame_side_iff {k s : ℝ} (hk : 0 < k) (hs : 0 < s) (x shift side : ℝ) :
    -shift * k ≤ x * k ∧ x * k ≤ -shift * k + side * k / s ↔ 0 ≤ (x + shift) * s ∧ (x + shift) * s ≤ side := by
  have hlow : -shift * k ≤ x * k ↔ 0 ≤ (x + shift) * s := by
    rw [mul_le_mul_iff_left₀ hk, neg_le_iff_add_nonneg, mul_nonneg_iff_of_pos_right hs]
  have hfar : -shift * k + side * k / s = (-shift + side / s) * k := by ring
  have hhigh : x * k ≤ -shift * k + side * k / s ↔ (x + shift) * s ≤ side := by
    rw [hfar, mul_le_mul_iff_left₀ hk, ← le_div_iff₀ hs, neg_add_eq_sub, le_sub_iff_add_le]
  rw [hlow, hhigh]

theorem contains_rect_iff (r : Rect ℝ) (p : Vec ℝ) :
    r.contains p = true ↔ (r.min.x ≤ p.x ∧ p.x ≤ r.max.x) ∧ (r.min.y ≤ p.y ∧ p.y ≤ r.max.y) := by
  simp [Rect.contains, and_assoc]

theorem contains_iff_onCanvas (settings : MinimapSettings ℝ) (hk : 0 < settings.scale) (m : Model ℝ) (t : Transform ℝ)
    (ht : 0 < t.scale) (size world : Vec ℝ) :
    (of settings m t size).viewport.contains (world * settings.scale) = true ↔ OnCanvas size (shiftedFirst t world) := by
  rw [contains_rect_iff]
  exact and_congr (frame_side_iff hk ht world.x t.shift.x size.x) (frame_side_iff hk ht world.y t.shift.y size.y)

theorem markers_getElem? (settings : MinimapSettings ℝ) (m : Model ℝ) (t : Transform ℝ) (size : Vec ℝ)
    (i : Fin m.graph.size) :
    (of settings m t size).markers[i.val]? = some ((m.bodies.get i).pos * settings.scale) := by
  simp [of, Vector.get_eq_getElem]

/-! ## When the frame shows what is on screen -/

theorem onCanvas_iff_of_scale_one {t : Transform ℝ} (h : t.scale = 1) (size world : Vec ℝ) :
    OnCanvas size (t.apply world) ↔ OnCanvas size (shiftedFirst t world) := by
  simp [OnCanvas, Transform.apply, shiftedFirst, h]

theorem onCanvas_iff_of_shift_zero {t : Transform ℝ} (h : t.shift = 0) (size world : Vec ℝ) :
    OnCanvas size (t.apply world) ↔ OnCanvas size (shiftedFirst t world) := by
  simp [OnCanvas, Transform.apply, shiftedFirst, h]

theorem not_onCanvas_of_neg {size : Vec ℝ} (h : size.x < 0 ∨ size.y < 0) (p : Vec ℝ) : ¬ OnCanvas size p := by
  rintro ⟨⟨hx, hx'⟩, hy, hy'⟩
  rcases h with h | h
  · linarith
  · linarith

/-- The two corners that have to agree, of the region and of the frame, agree in one coordinate only if the scale is 1
or the shift is 0. -/
theorem eq_zero_of_corners {s : ℝ} (hs : s ≠ 1) {shift : ℝ} (hregion : 0 ≤ shift * (s - 1))
    (hframe : 0 ≤ shift * (1 - s)) : shift = 0 := by
  have hzero : shift * (s - 1) = 0 := by nlinarith
  rcases mul_eq_zero.mp hzero with h | h
  · exact h
  · exact absurd (by linarith) hs

/-- A graph of one node, which stands at `p`. -/
noncomputable def oneNodeAt (p : Vec ℝ) : Model ℝ :=
  (Model.ofGraph (CallGraph.ofSpec ⟨[NodeSpec.ofId "a"], []⟩)).mapBodies fun b => { b with pos := p }

theorem oneNodeAt_size (p : Vec ℝ) : 0 < (oneNodeAt p).graph.size := by
  show 0 < (CallGraph.ofSpec ⟨[NodeSpec.ofId "a"], []⟩).size
  decide

theorem oneNodeAt_pos (p : Vec ℝ) (i : Fin (oneNodeAt p).graph.size) : ((oneNodeAt p).bodies.get i).pos = p := by
  rw [Vector.get_eq_getElem]
  exact congrArg Body.pos (Vector.getElem_map _ i.isLt)

theorem agrees_iff {t : Transform ℝ} (ht : 0 < t.scale) (size : Vec ℝ) :
    (∀ world, OnCanvas size (t.apply world) ↔ OnCanvas size (shiftedFirst t world)) ↔
      t.scale = 1 ∨ t.shift = 0 ∨ size.x < 0 ∨ size.y < 0 := by
  constructor
  · intro h
    by_contra hnot
    push Not at hnot
    obtain ⟨hscale, hshift, hx, hy⟩ := hnot
    have hregion := (h ⟨-t.shift.x / t.scale, -t.shift.y / t.scale⟩).mp (by
      simp [OnCanvas, Transform.apply, div_mul_cancel₀ _ ht.ne', hx, hy])
    have hframe := (h ⟨-t.shift.x, -t.shift.y⟩).mpr (by simp [OnCanvas, shiftedFirst, hx, hy])
    simp only [OnCanvas, Transform.apply, shiftedFirst, Vec.add_x, Vec.add_y, Vec.scale_x, Vec.scale_y, add_mul,
      div_mul_cancel₀ _ ht.ne'] at hregion hframe
    apply hshift
    ext
    · rw [Vec.zero_x]
      exact eq_zero_of_corners hscale (by linarith [hregion.1.1]) (by linarith [hframe.1.1])
    · rw [Vec.zero_y]
      exact eq_zero_of_corners hscale (by linarith [hregion.2.1]) (by linarith [hframe.2.1])
  · rintro (h | h | h) world
    · exact onCanvas_iff_of_scale_one h size world
    · exact onCanvas_iff_of_shift_zero h size world
    · exact iff_of_false (not_onCanvas_of_neg h _) (not_onCanvas_of_neg h _)

/-- A marker is in the frame exactly if its node would be on the canvas were it shifted before it is scaled. So the frame
shows what is on screen, whatever the graph, exactly if nothing is scaled, nothing is shifted or the canvas is empty. -/
theorem frame_shows_canvas_iff (settings : MinimapSettings ℝ) (t : Transform ℝ) (size : Vec ℝ)
    (hk : 0 < settings.scale) (ht : 0 < t.scale) :
    (∀ (m : Model ℝ) (i : Fin m.graph.size), ∃ marker, (of settings m t size).markers[i.val]? = some marker ∧
      ((of settings m t size).viewport.contains marker = true ↔
        OnCanvas size (shiftedFirst t (m.bodies.get i).pos))) ∧
    ((∀ (m : Model ℝ) (i : Fin m.graph.size), ∃ marker, (of settings m t size).markers[i.val]? = some marker ∧
        (OnCanvas size (t.apply (m.bodies.get i).pos) ↔ (of settings m t size).viewport.contains marker = true)) ↔
      t.scale = 1 ∨ t.shift = 0 ∨ size.x < 0 ∨ size.y < 0) := by
  refine ⟨fun m i => ⟨_, markers_getElem? settings m t size i, contains_iff_onCanvas settings hk m t ht size _⟩, ?_⟩
  rw [← agrees_iff ht size]
  constructor
  · intro h world
    obtain ⟨marker, hmarker, hiff⟩ := h (oneNodeAt world) ⟨0, oneNodeAt_size world⟩
    rw [markers_getElem?, Option.some.injEq] at hmarker
    rw [← hmarker, contains_iff_onCanvas settings hk _ t ht, oneNodeAt_pos] at hiff
    exact hiff
  · intro h m i
    refine ⟨_, markers_getElem? settings m t size i, ?_⟩
    rw [contains_iff_onCanvas settings hk m t ht]
    exact h _

theorem unscaled_frame_shows_canvas :
    0 < (MinimapSettings.standard : MinimapSettings ℝ).scale ∧ (0 : ℝ) < 1 ∧
    ∀ (m : Model ℝ) (i : Fin m.graph.size),
      ∃ marker, (of .standard m ⟨⟨30, -12⟩, 1⟩ ⟨800, 600⟩).markers[i.val]? = some marker ∧
        (OnCanvas ⟨800, 600⟩ (Transform.apply ⟨⟨30, -12⟩, 1⟩ (m.bodies.get i).pos) ↔
          (of .standard m ⟨⟨30, -12⟩, 1⟩ ⟨800, 600⟩).viewport.contains marker = true) := by
  have hk : 0 < (MinimapSettings.standard : MinimapSettings ℝ).scale := by norm_num [MinimapSettings.standard]
  obtain ⟨-, hiff⟩ := frame_shows_canvas_iff .standard ⟨⟨30, -12⟩, 1⟩ ⟨800, 600⟩ hk one_pos
  exact ⟨hk, one_pos, hiff.mpr (Or.inl rfl)⟩

/-- Magnified twice and shifted by the width of the canvas, not every node on screen has its marker in the frame. -/
theorem magnified_frame_misses_node :
    ∃ (m : Model ℝ) (i : Fin m.graph.size) (marker : Vec ℝ),
      (of .standard m ⟨⟨-800, 0⟩, 2⟩ ⟨800, 600⟩).markers[i.val]? = some marker ∧
      OnCanvas ⟨800, 600⟩ (Transform.apply ⟨⟨-800, 0⟩, 2⟩ (m.bodies.get i).pos) ∧
      ¬ (of .standard m ⟨⟨-800, 0⟩, 2⟩ ⟨800, 600⟩).viewport.contains marker = true := by
  refine ⟨oneNodeAt ⟨500, 100⟩, ⟨0, oneNodeAt_size _⟩, _, markers_getElem? _ _ _ _ _, ?_, ?_⟩
  · rw [oneNodeAt_pos]
    norm_num [OnCanvas, Transform.apply]
  · rw [contains_iff_onCanvas _ (by norm_num [MinimapSettings.standard]) _ _ (by norm_num), oneNodeAt_pos]
    norm_num [OnCanvas, shiftedFirst]

end CallAtlas.Minimap
