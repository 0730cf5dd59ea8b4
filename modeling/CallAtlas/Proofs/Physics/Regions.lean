import Mathlib
import CallAtlas.Physics.QuadTree
import CallAtlas.Proofs.Number.Exact

/-! What a region tree holds.

Whatever the numbers are, the leaves of a tree list the points that it was grown over, each once (`members_build`).
Without rounding every region also tells the truth about the points below it: they lie in its cell, its mass is their
number and its center their mean (`QuadTree.Sound`). -/

namespace CallAtlas

set_option autoImplicit false

namespace QuadTree

section Members

variable {α : Type} {n : ℕ}

/-- The points in the leaves of a tree. -/
def members : QuadTree α n → List (Fin n)
  | .empty => []
  | .leaf _ members => members
  | .branch _ a b c d => a.members ++ b.members ++ c.members ++ d.members

/-- A tree with all trees below it. -/
def subtrees : QuadTree α n → List (QuadTree α n)
  | .empty => [.empty]
  | .leaf region members => [.leaf region members]
  | .branch region a b c d => .branch region a b c d :: (a.subtrees ++ b.subtrees ++ c.subtrees ++ d.subtrees)

theorem mem_subtrees_self (tree : QuadTree α n) : tree ∈ tree.subtrees := by
  cases tree <;> simp [subtrees]

variable [Scalar α] (positions : Vector (Vec α) n)

/-- The tree over the points in one quarter of a cell. -/
def growQuarter (levels : ℕ) (cell : Cell α) (members : List (Fin n)) (right lower : Bool) : QuadTree α n :=
  if (inQuadrant positions cell members right lower).isEmpty then .empty
  else grow positions levels (cell.quarter ⟨right, lower⟩) (inQuadrant positions cell members right lower)

/-- A tree is a leaf, or a branch over the four quarters of its cell. -/
theorem grow_cases (levels : ℕ) (cell : Cell α) (members : List (Fin n)) :
    grow positions levels cell members = .leaf (regionOf positions cell members) members ∨
    ∃ below, levels = below + 1 ∧
      grow positions levels cell members =
        .branch (regionOf positions cell members) (growQuarter positions below cell members false false)
          (growQuarter positions below cell members true false) (growQuarter positions below cell members false true)
          (growQuarter positions below cell members true true) := by
  cases levels with
  | zero => exact Or.inl rfl
  | succ below =>
    rw [grow]
    dsimp only
    split
    · exact Or.inl rfl
    · split
      · exact Or.inl rfl
      · exact Or.inr ⟨below, rfl, rfl⟩

theorem count_inQuadrant (cell : Cell α) (members : List (Fin n)) (right lower : Bool) (i : Fin n) :
    (inQuadrant positions cell members right lower).count i =
      if cell.quadrantOf (positions.get i) = ⟨right, lower⟩ then members.count i else 0 := by
  unfold inQuadrant
  split
  · next h => exact List.count_filter (by simpa using h)
  · next h => exact List.count_eq_zero.mpr fun hmem => h (by simpa using (List.mem_filter.mp hmem).2)

/-- Every point of a cell is in exactly one of its quarters. -/
theorem quadrants_perm (cell : Cell α) (members : List (Fin n)) :
    (inQuadrant positions cell members false false ++ inQuadrant positions cell members true false ++
      inQuadrant positions cell members false true ++ inQuadrant positions cell members true true).Perm members := by
  refine List.perm_iff_count.mpr fun i => ?_
  simp only [List.count_append, count_inQuadrant]
  rcases cell.quadrantOf (positions.get i) with ⟨right, lower⟩
  cases right <;> cases lower <;> simp

/-- What is grown over some points has them, each as often, in its leaves. -/
theorem members_grow (levels : ℕ) (cell : Cell α) (members : List (Fin n)) :
    (grow positions levels cell members).members.Perm members := by
  induction levels generalizing cell members with
  | zero => exact .refl _
  | succ below ih =>
    have hquarter : ∀ right lower, (growQuarter positions below cell members right lower).members.Perm
        (inQuadrant positions cell members right lower) := by
      intro right lower
      unfold growQuarter
      split
      · next h => rw [List.isEmpty_iff.mp h]; exact .nil
      · exact ih _ _
    rcases grow_cases positions (below + 1) cell members with h | ⟨_, hbelow, h⟩
    · rw [h]
      exact .refl _
    · cases hbelow
      rw [h]
      refine List.Perm.trans ?_ (quadrants_perm positions cell members)
      exact (((hquarter _ _).append (hquarter _ _)).append (hquarter _ _)).append (hquarter _ _)

theorem build_eq_some_iff (tree : QuadTree α n) :
    build positions = some tree ↔
      ∃ cell, Cell.around positions.toList = some cell ∧ grow positions maxLevels cell (List.finRange n) = tree :=
  Option.map_eq_some_iff

/-- The leaves of a tree list all points, each once. -/
theorem members_build {tree : QuadTree α n} (h : build positions = some tree) :
    tree.members.Perm (List.finRange n) := by
  obtain ⟨cell, _, rfl⟩ := (build_eq_some_iff positions tree).mp h
  exact members_grow positions _ _ _

end Members

end QuadTree

/-! ## Cells without rounding -/

namespace Cell

theorem contains_iff (c : Cell ℝ) (p : Vec ℝ) :
    c.contains p = true ↔ |p.x - c.center.x| ≤ c.half ∧ |p.y - c.center.y| ≤ c.half := by
  simp [contains, Vec.abs, Scalar.abs_real]

theorem half_nonneg {c : Cell ℝ} {p : Vec ℝ} (h : c.contains p = true) : 0 ≤ c.half :=
  (abs_nonneg _).trans ((contains_iff c p).mp h).1

/-- A point of a cell lies in the quarter that it is sorted into. -/
theorem quarter_contains {c : Cell ℝ} {p : Vec ℝ} (h : c.contains p = true) :
    (c.quarter (c.quadrantOf p)).contains p = true := by
  -- Along each axis: a point on one side of the middle lies around the middle of that side.
  have hside : ∀ (u v half : ℝ), |u - v| ≤ half →
      |u - (v + if decide (v ≤ u) = true then half * 0.5 else -(half * 0.5))| ≤ half * 0.5 := by
    intro u v half huv
    rw [abs_le] at huv ⊢
    by_cases hle : v ≤ u
    · simp only [hle, decide_true, if_true]
      norm_num
      constructor <;> linarith
    · simp only [hle, decide_false]
      norm_num
      constructor <;> linarith
  rw [contains_iff] at h ⊢
  exact ⟨hside _ _ _ h.1, hside _ _ _ h.2⟩

/-- Points of two cells are at least as far apart as the cells. -/
theorem distanceSq_le {a b : Cell ℝ} {p q : Vec ℝ} (hp : a.contains p = true) (hq : b.contains q = true) :
    a.distanceSq b ≤ (p - q).lengthSq := by
  have hgap : ∀ u v c d h k : ℝ, |u - c| ≤ h → |v - d| ≤ k →
      max (|c - d| - (h + k)) 0 * max (|c - d| - (h + k)) 0 ≤ (u - v) * (u - v) := by
    intro u v c d h k hu hv
    have hmax : max (|c - d| - (h + k)) 0 ≤ |u - v| := by
      refine max_le ?_ (abs_nonneg _)
      have htri : |c - d| ≤ |c - u| + |u - v| + |v - d| := by
        calc |c - d| = |(c - u) + (u - v) + (v - d)| := by ring_nf
          _ ≤ |c - u| + |u - v| + |v - d| := abs_add_three _ _ _
      rw [abs_sub_comm c u] at htri
      linarith
    calc _ ≤ |u - v| * |u - v| := mul_self_le_mul_self (le_max_right _ _) hmax
      _ = (u - v) * (u - v) := abs_mul_abs_self _
  rw [contains_iff] at hp hq
  have hx := hgap p.x q.x _ _ _ _ hp.1 hq.1
  have hy := hgap p.y q.y _ _ _ _ hp.2 hq.2
  simp only [distanceSq, Vec.lengthSq, Vec.larger, Vec.abs, Vec.zero, Scalar.larger_real, Scalar.abs_real,
    Scalar.zero_real, Vec.sub_x, Vec.sub_y]
  exact add_le_add hx hy

/-- A fold that goes down, or up, with every step ends below, or above, all that it has met. -/
theorem rel_foldl_of_rel_step {τ : Type} (op : τ → τ → τ) (r : τ → τ → Prop) (hrefl : ∀ a, r a a)
    (htrans : ∀ a b c, r a b → r b c → r a c) (hleft : ∀ a b, r (op a b) a) (hright : ∀ a b, r (op a b) b)
    (first : τ) (rest : List τ) : ∀ a ∈ first :: rest, r (rest.foldl op first) a := by
  induction rest generalizing first with
  | nil =>
    intro a ha
    rw [List.mem_singleton.mp ha]
    exact hrefl first
  | cons second rest ih =>
    intro a ha
    rw [List.foldl_cons]
    rcases List.mem_cons.mp ha with rfl | ha
    · exact htrans _ _ _ (ih _ _ List.mem_cons_self) (hleft _ _)
    · rcases List.mem_cons.mp ha with rfl | ha
      · exact htrans _ _ _ (ih _ _ List.mem_cons_self) (hright _ _)
      · exact ih _ a (List.mem_cons_of_mem _ ha)

/-- At most, in both coordinates. -/
def AtMost (a b : Vec ℝ) : Prop := a.x ≤ b.x ∧ a.y ≤ b.y

theorem foldl_smaller_atMost (first : Vec ℝ) (rest : List (Vec ℝ)) :
    ∀ p ∈ first :: rest, AtMost (rest.foldl Vec.smaller first) p := by
  refine rel_foldl_of_rel_step Vec.smaller AtMost (fun a => ⟨le_rfl, le_rfl⟩)
    (fun a b c hab hbc => ⟨hab.1.trans hbc.1, hab.2.trans hbc.2⟩) (fun a b => ?_) (fun a b => ?_) first rest
  · simp only [AtMost, Vec.smaller, Scalar.smaller_real]
    exact ⟨min_le_left _ _, min_le_left _ _⟩
  · simp only [AtMost, Vec.smaller, Scalar.smaller_real]
    exact ⟨min_le_right _ _, min_le_right _ _⟩

theorem foldl_larger_atLeast (first : Vec ℝ) (rest : List (Vec ℝ)) :
    ∀ p ∈ first :: rest, AtMost p (rest.foldl Vec.larger first) := by
  refine rel_foldl_of_rel_step Vec.larger (fun a b => AtMost b a) (fun a => ⟨le_rfl, le_rfl⟩)
    (fun a b c hab hbc => ⟨hbc.1.trans hab.1, hbc.2.trans hab.2⟩) (fun a b => ?_) (fun a b => ?_) first rest
  · simp only [AtMost, Vec.larger, Scalar.larger_real]
    exact ⟨le_max_left _ _, le_max_left _ _⟩
  · simp only [AtMost, Vec.larger, Scalar.larger_real]
    exact ⟨le_max_right _ _, le_max_right _ _⟩

theorem around_eq_none_iff (points : List (Vec ℝ)) : around points = none ↔ points = [] := by
  cases points with
  | nil => exact ⟨fun _ => rfl, fun _ => rfl⟩
  | cons first rest =>
    have hfinite : (first :: rest).all Vec.isFinite = true := List.all_eq_true.mpr fun p _ => p.isFinite_real
    simp [around, hfinite]

theorem around_contains {points : List (Vec ℝ)} {c : Cell ℝ} (h : around points = some c) :
    ∀ p ∈ points, c.contains p = true := by
  cases points with
  | nil => exact fun p hp => absurd hp List.not_mem_nil
  | cons first rest =>
    intro p hp
    have hlow := foldl_smaller_atMost first rest p hp
    have hhigh := foldl_larger_atLeast first rest p hp
    rw [around, if_pos (List.all_eq_true.mpr fun p _ => p.isFinite_real)] at h
    generalize rest.foldl Vec.smaller first = low at h hlow
    generalize rest.foldl Vec.larger first = high at h hhigh
    cases Option.some.inj h
    -- The side is longer than the span of the points along either axis.
    have hmiddle : ∀ u l h span : ℝ, l ≤ u → u ≤ h → h - l ≤ span → |u - (l + h) * 0.5| ≤ span * 0.5 + 1.0 := by
      intro u l h span hl hh hspan
      rw [abs_le]
      norm_num
      constructor <;> linarith
    have hspan : high.x - low.x ≤ ((high - low).larger ⟨1.0, 1.0⟩).maxComponent ∧
        high.y - low.y ≤ ((high - low).larger ⟨1.0, 1.0⟩).maxComponent := by
      simp only [Vec.maxComponent, Vec.larger, Scalar.larger_real, Vec.sub_x, Vec.sub_y]
      exact ⟨(le_max_left _ _).trans (le_max_left _ _), (le_max_left _ _).trans (le_max_right _ _)⟩
    rw [contains_iff]
    exact ⟨hmiddle _ _ _ _ hlow.1 hhigh.1 hspan.1, hmiddle _ _ _ _ hlow.2 hhigh.2 hspan.2⟩

end Cell

/-! ## Regions without rounding -/

variable {n : ℕ}

/-- What a region says is true of some points: they are there, they lie in its cell, its mass is their number and its
center is their mean. -/
structure Region.Fits (positions : Vector (Vec ℝ) n) (members : List (Fin n)) (r : Region ℝ) : Prop where
  inhabited : members ≠ []
  inside : ∀ i ∈ members, r.cell.contains (positions.get i) = true
  mass : r.mass = members.length
  mean : r.center = (members.map positions.get).sum / r.mass

theorem Region.Fits.of_perm {positions : Vector (Vec ℝ) n} {members members' : List (Fin n)} {r : Region ℝ}
    (h : r.Fits positions members) (hperm : members'.Perm members) : r.Fits positions members' where
  inhabited hnil := h.inhabited (List.nil_perm.mp (hnil ▸ hperm))
  inside i hi := h.inside i (hperm.mem_iff.mp hi)
  mass := h.mass.trans (by rw [hperm.length_eq])
  mean := h.mean.trans (by rw [(hperm.map positions.get).sum_eq])

namespace QuadTree

theorem regionOf_fits (positions : Vector (Vec ℝ) n) (cell : Cell ℝ) (members : List (Fin n)) (hne : members ≠ [])
    (hinside : ∀ i ∈ members, cell.contains (positions.get i) = true) :
    (regionOf positions cell members).Fits positions members := by
  refine ⟨hne, hinside, rfl, ?_⟩
  rw [regionOf, Vec.foldl_add_eq, Vec.zero_eq, zero_add]

/-- Every region of a tree fits the points below it. -/
def Sound (positions : Vector (Vec ℝ) n) : QuadTree ℝ n → Prop
  | .empty => True
  | .leaf region members => region.Fits positions members
  | .branch region a b c d =>
    region.Fits positions (a.members ++ b.members ++ c.members ++ d.members) ∧
      a.Sound positions ∧ b.Sound positions ∧ c.Sound positions ∧ d.Sound positions

theorem grow_sound (positions : Vector (Vec ℝ) n) (levels : ℕ) (cell : Cell ℝ) (members : List (Fin n))
    (hne : members ≠ []) (hinside : ∀ i ∈ members, cell.contains (positions.get i) = true) :
    (grow positions levels cell members).Sound positions := by
  induction levels generalizing cell members with
  | zero => exact regionOf_fits positions cell members hne hinside
  | succ below ih =>
    have hquarter : ∀ right lower, (growQuarter positions below cell members right lower).Sound positions := by
      intro right lower
      unfold growQuarter
      split
      · exact True.intro
      · next h =>
        refine ih _ _ (by simpa using h) fun i hi => ?_
        obtain ⟨hi, hquadrant⟩ := List.mem_filter.mp hi
        rw [← of_decide_eq_true hquadrant]
        exact Cell.quarter_contains (hinside i hi)
    have hperm := members_grow positions (below + 1) cell members
    have hfits := regionOf_fits positions cell members hne hinside
    rcases grow_cases positions (below + 1) cell members with h | ⟨_, hbelow, h⟩
    · rw [h]
      exact hfits
    · cases hbelow
      rw [h] at hperm ⊢
      exact ⟨hfits.of_perm hperm, hquarter _ _, hquarter _ _, hquarter _ _, hquarter _ _⟩

theorem build_sound {positions : Vector (Vec ℝ) n} {tree : QuadTree ℝ n} (h : build positions = some tree) :
    tree.Sound positions := by
  obtain ⟨cell, hcell, rfl⟩ := (build_eq_some_iff positions tree).mp h
  refine grow_sound positions _ cell _ ?_ fun i _ => Cell.around_contains hcell _ ?_
  · intro hnil
    have hzero : n = 0 := by simpa using hnil
    subst hzero
    exact Option.some_ne_none cell (hcell.symm.trans ((Cell.around_eq_none_iff _).mpr (by simp)))
  · simp [Vector.get_eq_getElem]

theorem build_eq_none_iff (positions : Vector (Vec ℝ) n) : build positions = none ↔ n = 0 := by
  rw [build, Option.map_eq_none_iff, Cell.around_eq_none_iff]
  simp

end QuadTree

end CallAtlas
