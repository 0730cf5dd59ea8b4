import CallAtlas.Proofs.Physics.Nesting

/-! Where the cutting of cells stops.

A cell is cut unless it is small, deep, or has all its points in one of its quarters (`grow_eq_leaf_iff`). The last of
these looks one level ahead only, so it also stops at points that lie close together and not in one place. Which cells
do so can be told without the tree: a path of quarters leads from the top cell to each cell there could be, and the
points that are sorted along it are those of the cell (`NodeAt.along`, `exists_nodeAt_along`). -/

namespace CallAtlas

set_option autoImplicit false

variable {α : Type} [Scalar α] {n : ℕ}

/-! ## Paths -/

namespace Cell

/-- The cell at the end of a path of quarters. -/
def descend (c : Cell α) (path : List Quadrant) : Cell α := path.foldl quarter c

/-- Whether a point goes into each of the quarters on a path. -/
def sortsAlong (c : Cell α) : List Quadrant → Vec α → Bool
  | [], _ => true
  | q :: path, p => c.quadrantOf p = q && (c.quarter q).sortsAlong path p

end Cell

namespace QuadTree

variable (positions : Vector (Vec α) n)

/-- Those of some points that are sorted along a path. -/
def along (cell : Cell α) (members : List (Fin n)) (path : List Cell.Quadrant) : List (Fin n) :=
  members.filter fun i => cell.sortsAlong path (positions.get i)

theorem along_nil (cell : Cell α) (members : List (Fin n)) : along positions cell members [] = members := by
  simp [along, Cell.sortsAlong]

theorem along_cons (cell : Cell α) (members : List (Fin n)) (q : Cell.Quadrant) (path : List Cell.Quadrant) :
    along positions cell members (q :: path) =
      along positions (cell.quarter q) (inQuadrant positions cell members q.right q.lower) path := by
  simp only [along, inQuadrant, List.filter_filter, Cell.sortsAlong]
  exact List.filter_congr fun i _ => Bool.and_comm _ _

theorem along_append_sublist (cell : Cell α) (members : List (Fin n)) (path more : List Cell.Quadrant) :
    (along positions cell members (path ++ more)).Sublist (along positions cell members path) := by
  induction path generalizing cell members with
  | nil =>
    rw [along_nil]
    exact List.filter_sublist
  | cons q path ih =>
    rw [List.cons_append, along_cons, along_cons]
    exact ih _ _

/-! ## Cutting -/

/-- All of the points go into one quarter of a cell. -/
def InOneQuarter (cell : Cell α) (members : List (Fin n)) : Prop :=
  ∃ q, ∀ i ∈ members, cell.quadrantOf (positions.get i) = q

/-- The quarters of a cell, in the order of the parts of a node. -/
def quarters : List Cell.Quadrant := [⟨false, false⟩, ⟨true, false⟩, ⟨false, true⟩, ⟨true, true⟩]

theorem mem_quarters (q : Cell.Quadrant) : q ∈ quarters := by
  rcases q with ⟨right, lower⟩
  cases right <;> cases lower <;> decide

theorem length_parts_le_one_iff (cell : Cell α) (members : List (Fin n)) :
    ((quarters.map fun q => inQuadrant positions cell members q.right q.lower).filter fun p => !p.isEmpty).length ≤ 1 ↔
      InOneQuarter positions cell members := by
  have hpart : ∀ q, (!(inQuadrant positions cell members q.right q.lower).isEmpty) = true ↔
      ∃ i ∈ members, cell.quadrantOf (positions.get i) = q := by
    intro q
    simp [inQuadrant, List.filter_eq_nil_iff]
  have hnodup : quarters.Nodup := by decide
  rw [List.filter_map, List.length_map, ← List.toFinset_card_of_nodup (hnodup.filter _), Finset.card_le_one]
  simp only [List.mem_toFinset, List.mem_filter, mem_quarters, true_and, Function.comp_apply, hpart]
  constructor
  · intro hsame
    cases members with
    | nil => exact ⟨⟨false, false⟩, by simp⟩
    | cons i rest => exact ⟨_, fun j hj => hsame _ ⟨j, hj, rfl⟩ _ ⟨i, List.mem_cons_self, rfl⟩⟩
  · rintro ⟨q, hq⟩ _ ⟨i, hi, rfl⟩ _ ⟨j, hj, rfl⟩
    rw [hq i hi, hq j hj]

theorem grow_eq_leaf_iff (levels : ℕ) (cell : Cell α) (members : List (Fin n)) :
    grow positions levels cell members = .leaf (regionOf positions cell members) members ↔
      levels = 0 ∨ members.length ≤ leafCapacity ∨ InOneQuarter positions cell members := by
  cases levels with
  | zero => exact iff_of_true rfl (Or.inl rfl)
  | succ levels =>
    rw [grow, ← length_parts_le_one_iff]
    dsimp only
    split
    · next hsmall => exact iff_of_true rfl (Or.inr (Or.inl hsmall))
    · next hlarge =>
      split
      · next hparts => exact iff_of_true rfl (Or.inr (Or.inr hparts))
      · next hparts =>
        refine iff_of_false (fun hleaf => ?_) (not_or.mpr ⟨Nat.succ_ne_zero _, not_or.mpr ⟨hlarge, hparts⟩⟩)
        cases hleaf

theorem grow_eq_leaf {levels : ℕ} {cell : Cell α} {members listed : List (Fin n)} {region : Region α}
    (h : grow positions levels cell members = .leaf region listed) :
    region = regionOf positions cell members ∧ listed = members := by
  rcases grow_cases positions levels cell members with hleaf | ⟨_, _, hbranch⟩
  · rw [hleaf] at h
    injection h with hregion hlisted
    exact ⟨hregion.symm, hlisted.symm⟩
  · rw [hbranch] at h
    cases h

/-! ## Nodes at the ends of paths -/

theorem NodeAt.along {depth levels : ℕ} {cell : Cell α} {members : List (Fin n)} {node : QuadTree α n}
    (h : NodeAt depth (grow positions levels cell members) node) :
    ∃ path left, path.length = depth ∧ depth + left = levels ∧
      node = grow positions left (cell.descend path) (along positions cell members path) := by
  induction depth generalizing levels cell members with
  | zero =>
    cases h
    exact ⟨[], levels, rfl, Nat.zero_add _, by rw [along_nil]; rfl⟩
  | succ depth ih =>
    cases h with
    | child hchild hnode =>
      obtain ⟨below, right, lower, rfl, -, rfl⟩ := mem_children_grow positions hchild
      obtain ⟨path, left, hlength, hlevels, rfl⟩ := ih hnode
      refine ⟨⟨right, lower⟩ :: path, left, by rw [List.length_cons, hlength], by omega, ?_⟩
      rw [along_cons]
      rfl

theorem mem_children_of_inQuadrant_ne_nil {below : ℕ} {cell : Cell α} {members : List (Fin n)} {q : Cell.Quadrant}
    (hcut : grow positions (below + 1) cell members ≠ .leaf (regionOf positions cell members) members)
    (hne : inQuadrant positions cell members q.right q.lower ≠ []) :
    grow positions below (cell.quarter q) (inQuadrant positions cell members q.right q.lower) ∈
      (grow positions (below + 1) cell members).children := by
  obtain ⟨_, hlevels, hbranch⟩ := (grow_cases positions (below + 1) cell members).resolve_left hcut
  cases hlevels
  have hempty : (inQuadrant positions cell members q.right q.lower).isEmpty = false := by simpa using hne
  have hgrown : growQuarter positions below cell members q.right q.lower =
      grow positions below (cell.quarter q) (inQuadrant positions cell members q.right q.lower) := by
    rw [growQuarter, hempty, if_neg Bool.false_ne_true]
  rw [hbranch, children, List.mem_filter, ← hgrown, isEmpty_growQuarter, hempty]
  rcases q with ⟨right, lower⟩
  cases right <;> cases lower <;> simp

/-- On the way along a path with points on it there is a leaf, or a node is at the end of it. -/
theorem exists_nodeAt_along (path : List Cell.Quadrant) {levels : ℕ} {cell : Cell α} {members : List (Fin n)}
    (hlevels : path.length ≤ levels) (hne : along positions cell members path ≠ []) :
    (∃ upper more region, path = upper ++ more ∧ NodeAt upper.length (grow positions levels cell members)
      (.leaf region (along positions cell members upper))) ∨
      NodeAt path.length (grow positions levels cell members)
        (grow positions (levels - path.length) (cell.descend path) (along positions cell members path)) := by
  induction path generalizing levels cell members with
  | nil =>
    right
    rw [along_nil]
    exact .top _
  | cons q path ih =>
    obtain ⟨below, rfl⟩ : ∃ below, levels = below + 1 :=
      Nat.exists_eq_add_of_le' (Nat.succ_le_of_lt (Nat.zero_lt_of_lt hlevels))
    by_cases hleaf : grow positions (below + 1) cell members = .leaf (regionOf positions cell members) members
    · refine Or.inl ⟨[], q :: path, regionOf positions cell members, rfl, ?_⟩
      rw [along_nil, ← hleaf]
      exact .top _
    · rw [along_cons] at hne ⊢
      have hpart : inQuadrant positions cell members q.right q.lower ≠ [] := by
        intro hnil
        rw [hnil] at hne
        exact hne rfl
      have hchild := mem_children_of_inQuadrant_ne_nil positions hleaf hpart
      rcases ih (Nat.le_of_succ_le_succ hlevels) hne with ⟨upper, more, region, rfl, hnode⟩ | hnode
      · refine Or.inl ⟨q :: upper, more, region, rfl, ?_⟩
        rw [along_cons]
        exact .child hchild hnode
      · right
        rw [List.length_cons, Nat.add_sub_add_right]
        exact .child hchild hnode

/-! ## Clusters -/

/-- The points lie in one place, as the numbers tell. -/
def Coincide (members : List (Fin n)) : Prop :=
  ∀ i ∈ members, ∀ j ∈ members, (positions.get i == positions.get j) = true

/-- More points of a cell than a leaf should hold, which lie in different places and in one quarter of the cell. -/
structure Cluster (cell : Cell α) (members : List (Fin n)) : Prop where
  many : leafCapacity < members.length
  together : InOneQuarter positions cell members
  apart : ¬ Coincide positions members

/-- Every leaf with more points than it should hold, above the last level, holds them for being in one place. -/
def LargeLeavesCoincide (tree : QuadTree α n) : Prop :=
  ∀ depth region members, NodeAt depth tree (.leaf region members) → depth < maxLevels →
    leafCapacity < members.length → Coincide positions members

theorem inOneQuarter_of_nodeAt {cell : Cell α} {members listed : List (Fin n)} {depth : ℕ} {region : Region α}
    (h : NodeAt depth (grow positions maxLevels cell members) (.leaf region listed)) (hdepth : depth < maxLevels)
    (hmany : leafCapacity < listed.length) :
    ∃ path : List Cell.Quadrant, path.length = depth ∧ region.cell = cell.descend path ∧
      listed = along positions cell members path ∧ InOneQuarter positions region.cell listed := by
  obtain ⟨path, left, hlength, hlevels, hnode⟩ := h.along positions
  obtain ⟨rfl, rfl⟩ := grow_eq_leaf positions hnode.symm
  refine ⟨path, hlength, rfl, rfl, ?_⟩
  rcases (grow_eq_leaf_iff positions left _ _).mp hnode.symm with rfl | hsmall | htogether
  · omega
  · omega
  · exact htogether

theorem largeLeavesCoincide_iff (cell : Cell α) (members : List (Fin n)) :
    LargeLeavesCoincide positions (grow positions maxLevels cell members) ↔
      ∀ path : List Cell.Quadrant, path.length < maxLevels →
        ¬ Cluster positions (cell.descend path) (along positions cell members path) := by
  constructor
  · intro hleaves path hpath hcluster
    have hne : along positions cell members path ≠ [] := List.ne_nil_of_length_pos (Nat.zero_lt_of_lt hcluster.many)
    rcases exists_nodeAt_along positions path hpath.le hne with ⟨upper, more, region, rfl, hnode⟩ | hnode
    · -- The cluster lies in a leaf further up, which then is too large itself.
      have hsub := along_append_sublist positions cell members upper more
      have hupper := hleaves _ _ _ hnode (by rw [List.length_append] at hpath; omega)
        (hcluster.many.trans_le hsub.length_le)
      exact hcluster.apart fun i hi j hj => hupper i (hsub.mem hi) j (hsub.mem hj)
    · rw [(grow_eq_leaf_iff positions _ _ _).mpr (Or.inr (Or.inr hcluster.together))] at hnode
      exact hcluster.apart (hleaves _ _ _ hnode hpath hcluster.many)
  · intro hclusters depth region listed hnode hdepth hmany
    obtain ⟨path, rfl, hcell, rfl, htogether⟩ := inOneQuarter_of_nodeAt positions hnode hdepth hmany
    by_contra hapart
    rw [hcell] at htogether
    exact hclusters path hdepth ⟨hmany, htogether, hapart⟩

/-- A leaf with more than 8 points that is less than 12 levels down has them all in one quarter of its cell. They also
lie in one place, in all such leaves, exactly if there is no cluster: in none of the cells that are got by cutting the
top cell less than 12 times do more than 8 points, which lie in different places, go into one quarter. -/
theorem build_large_leaves {positions : Vector (Vec α) n} {tree : QuadTree α n} (h : build positions = some tree) :
    (∀ depth region members, NodeAt depth tree (.leaf region members) → depth < 12 → 8 < members.length →
      InOneQuarter positions region.cell members) ∧
    ∃ top, Cell.around positions.toList = some top ∧
      ((∀ depth region members, NodeAt depth tree (.leaf region members) → depth < 12 → 8 < members.length →
          ∀ i ∈ members, ∀ j ∈ members, (positions.get i == positions.get j) = true) ↔
        ∀ path : List Cell.Quadrant, path.length < 12 →
          ¬ Cluster positions (top.descend path) (along positions top (List.finRange n) path)) := by
  obtain ⟨top, htop, rfl⟩ := (build_eq_some_iff positions tree).mp h
  refine ⟨fun depth region members hnode hdepth hmany => ?_, top, htop, largeLeavesCoincide_iff positions top _⟩
  obtain ⟨-, -, -, -, htogether⟩ := inOneQuarter_of_nodeAt positions hnode hdepth hmany
  exact htogether

/-! ## A row of nine -/

/-- A point in a corner, and nine in a row far away from it. -/
def closeRow : Vector (Vec Float32) 10 :=
  #v[⟨0.0, 0.0⟩, ⟨320.0, 400.0⟩, ⟨330.0, 400.0⟩, ⟨340.0, 400.0⟩, ⟨350.0, 400.0⟩, ⟨360.0, 400.0⟩, ⟨370.0, 400.0⟩,
    ⟨380.0, 400.0⟩, ⟨390.0, 400.0⟩, ⟨400.0, 400.0⟩]

def closeRowTop : Cell Float32 := ⟨⟨200.0, 200.0⟩, 201.0⟩

theorem around_closeRow : Cell.around closeRow.toList = some closeRowTop := by
  have hparts : (Cell.around closeRow.toList).map (fun c => (c.center, c.half)) = some (⟨200.0, 200.0⟩, 201.0) := by
    decide +kernel
  obtain ⟨⟨center, half⟩, hcell, hsame⟩ := Option.map_eq_some_iff.mp hparts
  cases hsame
  exact hcell

theorem closeRow_build : build closeRow = some (grow closeRow maxLevels closeRowTop (List.finRange 10)) :=
  (build_eq_some_iff closeRow _).mpr ⟨closeRowTop, around_closeRow, rfl⟩

theorem inQuadrant_closeRow :
    inQuadrant closeRow closeRowTop (List.finRange 10) true true = [1, 2, 3, 4, 5, 6, 7, 8, 9] := by
  decide +kernel

theorem closeRow_inOneQuarter :
    InOneQuarter closeRow (closeRowTop.quarter ⟨true, true⟩) [1, 2, 3, 4, 5, 6, 7, 8, 9] :=
  ⟨⟨true, true⟩, by decide +kernel⟩

theorem closeRow_apart : (closeRow.get 1 == closeRow.get 2) = false := by
  decide +kernel

/-- Leaves of the row keep to one quarter, and not all of them to one place. -/
theorem closeRow_large_leaves :
    ∃ tree, build closeRow = some tree ∧
      (∀ depth region members, NodeAt depth tree (.leaf region members) → depth < 12 → 8 < members.length →
        InOneQuarter closeRow region.cell members) ∧
      ¬ ∀ depth region members, NodeAt depth tree (.leaf region members) → depth < 12 → 8 < members.length →
        ∀ i ∈ members, ∀ j ∈ members, (closeRow.get i == closeRow.get j) = true := by
  obtain ⟨hquarter, top, htop, hiff⟩ := build_large_leaves closeRow_build
  refine ⟨_, closeRow_build, hquarter, fun hcoincide => hiff.mp hcoincide [⟨true, true⟩] (by decide) ?_⟩
  cases htop.symm.trans around_closeRow
  rw [along_cons, along_nil, inQuadrant_closeRow]
  refine ⟨by decide, closeRow_inOneQuarter, fun hsame => ?_⟩
  exact absurd (hsame 1 (by decide) 2 (by decide)) (by rw [closeRow_apart]; decide)

/-- The nine points of the row share a leaf one level down, though they are apart and the cell below would part them. -/
theorem closeRow_shares_leaf :
    (∀ i, (closeRow.get i).isFinite = true) ∧
    (∃ tree region, build closeRow = some tree ∧ NodeAt 1 tree (.leaf region [1, 2, 3, 4, 5, 6, 7, 8, 9])) ∧
    (closeRow.get 1 == closeRow.get 2) = false ∧
    ¬ InOneQuarter closeRow (closeRowTop.descend [⟨true, true⟩, ⟨true, true⟩]) [1, 2, 3, 4, 5, 6, 7, 8, 9] := by
  have hcut : grow closeRow (11 + 1) closeRowTop (List.finRange 10) ≠
      .leaf (regionOf closeRow closeRowTop (List.finRange 10)) (List.finRange 10) := by
    rw [Ne, grow_eq_leaf_iff]
    rintro (h | h | ⟨q, hq⟩)
    · cases h
    · exact absurd h (by decide)
    · have hsame := (hq 0 (by decide)).trans (hq 1 (by decide)).symm
      revert hsame
      decide +kernel
  have hchild : grow closeRow 11 (closeRowTop.quarter ⟨true, true⟩)
      (inQuadrant closeRow closeRowTop (List.finRange 10) true true) ∈
        (grow closeRow (11 + 1) closeRowTop (List.finRange 10)).children :=
    mem_children_of_inQuadrant_ne_nil closeRow hcut (by rw [inQuadrant_closeRow]; decide)
  rw [inQuadrant_closeRow, (grow_eq_leaf_iff closeRow 11 _ _).mpr (Or.inr (Or.inr closeRow_inOneQuarter))] at hchild
  refine ⟨by decide +kernel, ⟨_, _, closeRow_build, .child hchild (.top _)⟩, closeRow_apart, ?_⟩
  rintro ⟨q, hq⟩
  have hsame := (hq 1 (by decide)).trans (hq 9 (by decide)).symm
  revert hsame
  decide +kernel

end QuadTree

end CallAtlas
