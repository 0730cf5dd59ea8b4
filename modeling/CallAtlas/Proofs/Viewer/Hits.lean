import CallAtlas.Proofs.Number.Exact
import CallAtlas.Proofs.Viewer.Run

/-! Hit testing finds what is painted on top, without rounding.

Painting goes through the nodes in order and draws discs on the screen; hit testing goes through them backwards and
compares distances in the world. A disc contains a point exactly if its node covers the point of the world behind it
(`covers_invert_iff`), so the first node found backwards is the last disc painted over the point. -/

namespace CallAtlas

set_option autoImplicit false

/-! ## Discs -/

structure Disc (α : Type) where
  center : Vec α
  radius : α

/-- The disc of a mark that shows a node. The markers of the overview have places of their own. -/
def Mark.disc? {α : Type} : Mark α → Option (Disc α)
  | .node center radius _ _ => some ⟨center, radius⟩
  | _ => none

/-- The discs among marks, in the order of painting. -/
def discs {α : Type} (marks : List (Mark α)) : List (Disc α) := marks.filterMap Mark.disc?

/-- The border belongs to the disc. -/
def Disc.Contains (d : Disc ℝ) (p : Vec ℝ) : Prop := (p - d.center).length ≤ d.radius

/-- Disc number `i` contains a point that no disc painted after it contains. -/
def OnTop (painted : List (Disc ℝ)) (p : Vec ℝ) (i : ℕ) : Prop :=
  ∃ d, painted[i]? = some d ∧ d.Contains p ∧ ∀ j d', i < j → painted[j]? = some d' → ¬ d'.Contains p

namespace Painting

def discOf {α : Type} [Scalar α] (t : Transform α) (b : Body α) : Disc α := ⟨t.apply b.pos, nodeRadius * t.scale⟩

theorem discs_marks {α : Type} [Scalar α] (m : Model α) (t : Transform α) (metric : String) (search : Search)
    (minimap : Minimap α) :
    discs (marks m t metric search minimap) = (List.finRange m.graph.size).map fun i => discOf t (m.bodies.get i) := by
  unfold discs marks
  simp [List.filterMap_map, Function.comp_def, Mark.disc?, discOf]

theorem apply_invert_sub (t : Transform ℝ) (ht : t.scale ≠ 0) (world p : Vec ℝ) :
    p - t.apply world = -((world - t.invert p) * t.scale) := by
  ext
  · simp only [Transform.apply, Transform.invert, Vec.sub_x, Vec.neg_x, Vec.scale_x]
    field_simp
    ring
  · simp only [Transform.apply, Transform.invert, Vec.sub_y, Vec.neg_y, Vec.scale_y]
    field_simp
    ring

theorem nodeRadius_pos : 0 < (nodeRadius : ℝ) := by norm_num [nodeRadius]

/-- A node covers the point of the world behind a point of the screen exactly if its disc contains that point. -/
theorem covers_invert_iff {t : Transform ℝ} (ht : 0 < t.scale) (b : Body ℝ) (p : Vec ℝ) :
    covers b (t.invert p) = true ↔ (discOf t b).Contains p := by
  have hr : 0 ≤ (nodeRadius : ℝ) * t.scale := (mul_pos nodeRadius_pos ht).le
  have hsquare : (nodeRadius : ℝ) * t.scale * (nodeRadius * t.scale) = nodeRadius * nodeRadius * (t.scale * t.scale) :=
    mul_mul_mul_comm _ _ _ _
  rw [covers, decide_eq_true_eq, Disc.Contains]
  change _ ↔ (p - t.apply b.pos).length ≤ nodeRadius * t.scale
  rw [Vec.length_le_iff _ hr, apply_invert_sub t ht.ne', Vec.lengthSq_neg, Vec.lengthSq_scale, hsquare,
    mul_le_mul_iff_left₀ (mul_pos ht ht)]

/-! ## The last one that contains a point -/

theorem find?_eq_some_iff_of_descending {n : ℕ} {l : List (Fin n)} (hl : l.Pairwise (· > ·)) (f : Fin n → Bool)
    (i : Fin n) : l.find? f = some i ↔ i ∈ l ∧ f i = true ∧ ∀ j ∈ l, i < j → f j = false := by
  have hfound : ∀ k, l.find? f = some k → k ∈ l ∧ f k = true ∧ ∀ j ∈ l, k < j → f j = false := by
    intro k hk
    obtain ⟨hfk, before, after, rfl, hbefore⟩ := List.find?_eq_some_iff_append.mp hk
    refine ⟨by simp, hfk, fun j hj hlt => ?_⟩
    rcases List.mem_append.mp hj with hmem | hmem
    · simpa using hbefore j hmem
    · rcases List.mem_cons.mp hmem with rfl | hlater
      · exact absurd hlt (lt_irrefl _)
      · have hgt : k > j := (List.pairwise_cons.mp (List.pairwise_append.mp hl).2.1).1 j hlater
        exact absurd hlt hgt.not_gt
  refine ⟨hfound i, ?_⟩
  rintro ⟨hmem, hfi, hlater⟩
  -- Something is found, since `i` would do, and of two that are last with `f` neither is before the other.
  cases hk : l.find? f with
  | none => exact absurd hfi (by simpa using List.find?_eq_none.mp hk i hmem)
  | some k =>
    obtain ⟨hkmem, hfk, hklater⟩ := hfound k hk
    rcases lt_trichotomy k i with hlt | rfl | hlt
    · rw [hklater i hmem hlt] at hfi
      exact absurd hfi Bool.false_ne_true
    · rfl
    · rw [hlater k hkmem hlt] at hfk
      exact absurd hfk Bool.false_ne_true

theorem finRange_reverse_descending (n : ℕ) : (List.finRange n).reverse.Pairwise (· > ·) :=
  List.pairwise_reverse.mpr (List.pairwise_lt_finRange n)

theorem nodeAt_eq_some_iff {t : Transform ℝ} (ht : 0 < t.scale) (m : Model ℝ) (p : Vec ℝ) (i : Fin m.graph.size) :
    nodeAt m t p = some i ↔
      (discOf t (m.bodies.get i)).Contains p ∧ ∀ j, i < j → ¬ (discOf t (m.bodies.get j)).Contains p := by
  rw [nodeAt, find?_eq_some_iff_of_descending (finRange_reverse_descending _)]
  simp only [List.mem_reverse, List.mem_finRange, true_and, forall_const, covers_invert_iff ht,
    ← Bool.not_eq_true]

theorem onTop_iff {t : Transform ℝ} (ht : 0 < t.scale) (m : Model ℝ) (metric : String) (search : Search)
    (minimap : Minimap ℝ) (p : Vec ℝ) (i : ℕ) :
    OnTop (discs (marks m t metric search minimap)) p i ↔ (nodeAt m t p).map (·.val) = some i := by
  have hdisc : ∀ k d, (discs (marks m t metric search minimap))[k]? = some d ↔
      ∃ h : k < m.graph.size, discOf t (m.bodies.get ⟨k, h⟩) = d := by
    intro k d
    rw [discs_marks, List.getElem?_eq_some_iff]
    simp
  constructor
  · rintro ⟨d, hd, hcontains, hlater⟩
    obtain ⟨h, rfl⟩ := (hdisc i d).mp hd
    rw [(nodeAt_eq_some_iff ht m p ⟨i, h⟩).mpr ⟨hcontains, fun j hj => hlater j _ hj ((hdisc j _).mpr ⟨j.isLt, rfl⟩)⟩]
    rfl
  · intro h
    obtain ⟨k, hk, rfl⟩ := Option.map_eq_some_iff.mp h
    obtain ⟨hcontains, hlater⟩ := (nodeAt_eq_some_iff ht m p k).mp hk
    refine ⟨_, (hdisc k _).mpr ⟨k.isLt, rfl⟩, hcontains, fun j d hj hd => ?_⟩
    obtain ⟨hlt, rfl⟩ := (hdisc j d).mp hd
    exact hlater ⟨j, hlt⟩ hj

theorem onTop_fin_iff {t : Transform ℝ} (ht : 0 < t.scale) (m : Model ℝ) (metric : String) (search : Search)
    (minimap : Minimap ℝ) (p : Vec ℝ) (i : Fin m.graph.size) :
    OnTop (discs (marks m t metric search minimap)) p i ↔ nodeAt m t p = some i := by
  rw [onTop_iff ht]
  exact (Option.map_injective Fin.val_injective).eq_iff' (Option.map_some ..)

theorem nodeAt_eq_none_iff {t : Transform ℝ} (ht : 0 < t.scale) (m : Model ℝ) (metric : String) (search : Search)
    (minimap : Minimap ℝ) (p : Vec ℝ) :
    nodeAt m t p = none ↔ ∀ d ∈ discs (marks m t metric search minimap), ¬ d.Contains p := by
  rw [nodeAt, List.find?_eq_none, discs_marks]
  simp [covers_invert_iff ht]

end Painting

/-! ## Drags and clicks -/

namespace Viewer

theorem clickAt_eq {α : Type} [Scalar α] {canvas : Rect α} {g : Gesture α} {point : Vec α} (v : Viewer α)
    (hclick : g.click = some .primary) (hpointer : g.pointer = some point) :
    v.clickAt canvas g = v.select (v.idAt (point - canvas.min)) := by
  simp only [clickAt, hclick, hpointer, beq_self_eq_true, if_true]

theorem idAt_eq_some_iff {v : Viewer ℝ} (ht : 0 < v.engine.transform.scale) (p : Vec ℝ) (id : String) :
    v.idAt p = some id ↔ ∃ i : Fin v.engine.model.graph.size,
      OnTop (discs v.engine.marks) p i ∧ (v.engine.model.graph.vertices.get i).id = id := by
  have hnode : ∀ i : Fin v.engine.model.graph.size,
      OnTop (discs v.engine.marks) p i ↔ Painting.nodeAt v.engine.model v.engine.transform p = some i :=
    Painting.onTop_fin_iff ht v.engine.model v.engine.metric v.engine.search v.engine.minimap p
  simp only [hnode, idAt, Option.map_eq_some_iff]

/-- Hit testing finds the node whose disc is on top, and nothing where there is no disc. A drag takes that node, unless
it is held already, and a click selects it. -/
theorem hits_disc_on_top (m : Model ℝ) (t : Transform ℝ) (ht : 0 < t.scale) (p : Vec ℝ) :
    (∀ metric search minimap,
      let painted := discs (Painting.marks m t metric search minimap)
      painted = (List.finRange m.graph.size).map
          (fun i => ⟨t.apply (m.bodies.get i).pos, Painting.nodeRadius * t.scale⟩) ∧
        (∀ i : Fin m.graph.size, Painting.nodeAt m t p = some i ↔ OnTop painted p i) ∧
        (Painting.nodeAt m t p = none ↔ ∀ d ∈ painted, ¬ d.Contains p)) ∧
    ∀ v : Viewer ℝ, v.engine.model = m → v.engine.transform = t →
      (∀ i, OnTop (discs v.engine.marks) p i → i ∉ v.engine.drags.nodes →
        ∃ e, v.engine.beginDrag p = (e, some i) ∧ e.drags.nodes = v.engine.drags.nodes ++ [i]) ∧
      ((∀ i, OnTop (discs v.engine.marks) p i → i ∈ v.engine.drags.nodes) →
        v.engine.beginDrag p = (v.engine, none)) ∧
      ∀ canvas g point, g.click = some .primary → g.pointer = some point → point - canvas.min = p →
        (v.clickAt canvas g).engine = v.engine ∧
        ∀ id, (v.clickAt canvas g).selected = some id ↔
          ∃ i : Fin v.engine.model.graph.size,
            OnTop (discs v.engine.marks) p i ∧ (v.engine.model.graph.vertices.get i).id = id := by
  refine ⟨fun metric search minimap => ⟨Painting.discs_marks m t metric search minimap,
    fun i => (Painting.onTop_fin_iff ht m metric search minimap p i).symm,
    Painting.nodeAt_eq_none_iff ht m metric search minimap p⟩, ?_⟩
  rintro v rfl rfl
  have hnode : ∀ i, OnTop (discs v.engine.marks) p i ↔ v.engine.nodeAt p = some i :=
    Painting.onTop_iff ht v.engine.model v.engine.metric v.engine.search v.engine.minimap p
  refine ⟨fun i hi hfree => ?_, fun h => Engine.beginDrag_of_not_free fun i hi => h i ((hnode i).mpr hi), ?_⟩
  · obtain ⟨held, hbegin, hnodes⟩ := Engine.beginDrag_of_free ((hnode i).mp hi) hfree
    exact ⟨_, hbegin, hnodes⟩
  · rintro canvas g point hclick hpointer rfl
    rw [v.clickAt_eq hclick hpointer]
    refine ⟨select_engine _ v, fun id => ?_⟩
    rw [select_selected, idAt_eq_some_iff ht]

/-- Two nodes that overlap. -/
noncomputable def overlapping : Model ℝ :=
  ⟨.ofSpec ⟨[.ofId "a", .ofId "b"], []⟩, Vector.ofFn fun i => ⟨⟨3 * i.val, 0⟩, 0, none⟩⟩

theorem overlapping_disc_contains (i : Fin overlapping.graph.size) (hi : i.val ≤ 1) :
    (Painting.discOf ⟨⟨10, 5⟩, 2⟩ (overlapping.bodies.get i)).Contains ⟨14, 5⟩ := by
  have hi' : (i.val : ℝ) = 0 ∨ (i.val : ℝ) = 1 := by
    norm_cast
    omega
  have hget : overlapping.bodies.get i = ⟨⟨3 * i.val, 0⟩, 0, none⟩ := Vector.get_ofFn _ i
  rw [← Painting.covers_invert_iff (by norm_num), hget, Painting.covers, decide_eq_true_eq]
  rcases hi' with h | h <;> norm_num [Transform.invert, Vec.lengthSq, Painting.nodeRadius, h]

/-- Where both discs are, the second one is hit. -/
theorem overlapping_hits_second :
    (0 : ℝ) < 2 ∧ (Painting.discOf ⟨⟨10, 5⟩, 2⟩ (overlapping.bodies.get ⟨0, by decide⟩)).Contains ⟨14, 5⟩ ∧
      Painting.nodeAt overlapping ⟨⟨10, 5⟩, 2⟩ ⟨14, 5⟩ = some ⟨1, by decide⟩ := by
  have hscale : (0 : ℝ) < 2 := by norm_num
  obtain ⟨hpainted, hhit, -⟩ := (hits_disc_on_top overlapping ⟨⟨10, 5⟩, 2⟩ hscale ⟨14, 5⟩).1 "" .none ⟨[], 0, ⟨0, 0⟩⟩
  refine ⟨hscale, overlapping_disc_contains _ (by decide), (hhit _).mpr ?_⟩
  rw [hpainted]
  refine ⟨_, rfl, overlapping_disc_contains _ (by decide), fun j d hj hd => ?_⟩
  have hlt : j < 2 := (List.getElem?_eq_some_iff.mp hd).1
  have hone : 1 < j := hj
  omega

end Viewer

end CallAtlas
