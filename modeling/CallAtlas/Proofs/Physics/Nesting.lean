import Mathlib
import CallAtlas.Physics.QuadTree
import CallAtlas.Proofs.Physics.Sources

/-! The nodes of a region tree, and how they lie in each other.

Every node is itself grown, over the points of its cell and with the levels that are left (`nodeAt_grow`). So what
holds of the top of a tree holds of all its nodes: a node lists its points or is cut into at least two parts
(`grow_cut`), its region fits the points below it, and its cell holds those of its parts (`Cell.contains_of_quarter`). -/

namespace CallAtlas

set_option autoImplicit false

namespace QuadTree

section Nodes

variable {α : Type} {n : ℕ}

def isEmpty : QuadTree α n → Bool
  | .empty => true
  | _ => false

/-- The nodes right below a node. -/
def children : QuadTree α n → List (QuadTree α n)
  | .branch _ a b c d => [a, b, c, d].filter fun part => !part.isEmpty
  | _ => []

/-- The points that a node lists itself. -/
def listed : QuadTree α n → List (Fin n)
  | .leaf _ members => members
  | _ => []

/-- `NodeAt depth tree node`: the node lies so many levels below the top of the tree. -/
inductive NodeAt : ℕ → QuadTree α n → QuadTree α n → Prop
  | top (tree : QuadTree α n) : NodeAt 0 tree tree
  | child {depth : ℕ} {tree child node : QuadTree α n} (hchild : child ∈ tree.children)
      (hnode : NodeAt depth child node) : NodeAt (depth + 1) tree node

variable [Scalar α] (positions : Vector (Vec α) n)

theorem isEmpty_grow (levels : ℕ) (cell : Cell α) (members : List (Fin n)) :
    (grow positions levels cell members).isEmpty = false := by
  rcases grow_cases positions levels cell members with h | ⟨_, _, h⟩ <;> rw [h] <;> rfl

theorem isEmpty_growQuarter (levels : ℕ) (cell : Cell α) (members : List (Fin n)) (right lower : Bool) :
    (growQuarter positions levels cell members right lower).isEmpty =
      (inQuadrant positions cell members right lower).isEmpty := by
  unfold growQuarter
  split
  · next h => exact h.symm
  · next h => rw [isEmpty_grow, Bool.eq_false_of_not_eq_true h]

theorem region?_grow (levels : ℕ) (cell : Cell α) (members : List (Fin n)) :
    (grow positions levels cell members).region? = some (regionOf positions cell members) := by
  rcases grow_cases positions levels cell members with h | ⟨_, _, h⟩ <;> rw [h] <;> rfl

/-- A node lists its points, or it is cut and has at least two parts. -/
theorem grow_cut (levels : ℕ) (cell : Cell α) (members : List (Fin n)) :
    ((grow positions levels cell members).children = [] ∧ (grow positions levels cell members).listed = members) ∨
      2 ≤ (grow positions levels cell members).children.length ∧ (grow positions levels cell members).listed = [] := by
  cases levels with
  | zero => exact Or.inl ⟨rfl, rfl⟩
  | succ below =>
    rw [grow]
    dsimp only
    split
    · exact Or.inl ⟨rfl, rfl⟩
    · split
      · exact Or.inl ⟨rfl, rfl⟩
      · next hparts =>
        refine Or.inr ⟨?_, rfl⟩
        -- A part is a node exactly if the quarter holds points, so there are as many nodes as such quarters.
        change 2 ≤ (children (.branch _ (growQuarter positions below cell members false false)
          (growQuarter positions below cell members true false) (growQuarter positions below cell members false true)
          (growQuarter positions below cell members true true))).length
        simp only [children, ← List.countP_eq_length_filter, List.countP_cons, List.countP_nil,
          isEmpty_growQuarter] at hparts ⊢
        omega

theorem mem_children_grow {levels : ℕ} {cell : Cell α} {members : List (Fin n)} {child : QuadTree α n}
    (h : child ∈ (grow positions levels cell members).children) :
    ∃ below right lower, levels = below + 1 ∧ inQuadrant positions cell members right lower ≠ [] ∧
      child = grow positions below (cell.quarter ⟨right, lower⟩) (inQuadrant positions cell members right lower) := by
  rcases grow_cases positions levels cell members with hleaf | ⟨below, hlevels, hbranch⟩
  · rw [hleaf] at h
    cases h
  · rw [hbranch, children, List.mem_filter] at h
    obtain ⟨hmem, hnode⟩ := h
    obtain ⟨right, lower, rfl⟩ :
        ∃ right lower, child = growQuarter positions below cell members right lower := by
      simp only [List.mem_cons, List.not_mem_nil, or_false] at hmem
      rcases hmem with rfl | rfl | rfl | rfl
      · exact ⟨_, _, rfl⟩
      · exact ⟨_, _, rfl⟩
      · exact ⟨_, _, rfl⟩
      · exact ⟨_, _, rfl⟩
    rw [isEmpty_growQuarter, Bool.not_eq_true'] at hnode
    refine ⟨below, right, lower, hlevels, by simpa using hnode, ?_⟩
    rw [growQuarter, hnode, if_neg Bool.false_ne_true]

end Nodes

end QuadTree

/-! ## Cells in cells -/

theorem Cell.contains_of_quarter {c : Cell ℝ} {q : Cell.Quadrant} {p : Vec ℝ} (h : (c.quarter q).contains p = true) :
    c.contains p = true := by
  -- Along each axis a quarter reaches from the middle to one end.
  have hside : ∀ (right : Bool) (u v half : ℝ), |u - (v + if right then half * 0.5 else -(half * 0.5))| ≤ half * 0.5 →
      |u - v| ≤ half := by
    intro right u v half hu
    rw [abs_le] at hu ⊢
    cases right
    · simp only [Bool.false_eq_true, if_false] at hu
      norm_num at hu
      constructor <;> linarith
    · simp only [if_true] at hu
      norm_num at hu
      constructor <;> linarith
  rw [contains_iff] at h ⊢
  exact ⟨hside q.right _ _ _ h.1, hside q.lower _ _ _ h.2⟩

namespace QuadTree

variable {n : ℕ} (positions : Vector (Vec ℝ) n)

/-! ## All nodes of a tree -/

theorem nodeAt_grow {depth levels : ℕ} {cell : Cell ℝ} {members : List (Fin n)} {node : QuadTree ℝ n}
    (h : NodeAt depth (grow positions levels cell members) node) (hne : members ≠ [])
    (hinside : ∀ i ∈ members, cell.contains (positions.get i) = true) :
    ∃ left cell' members', depth + left = levels ∧ members' ≠ [] ∧
      (∀ i ∈ members', cell'.contains (positions.get i) = true) ∧ node = grow positions left cell' members' := by
  induction depth generalizing levels cell members with
  | zero =>
    cases h
    exact ⟨levels, cell, members, Nat.zero_add _, hne, hinside, rfl⟩
  | succ depth ih =>
    cases h with
    | child hchild hnode =>
      obtain ⟨below, right, lower, rfl, hpart, rfl⟩ := mem_children_grow positions hchild
      have hquarter : ∀ i ∈ inQuadrant positions cell members right lower,
          (cell.quarter ⟨right, lower⟩).contains (positions.get i) = true := by
        intro i hi
        obtain ⟨hmem, hquadrant⟩ := List.mem_filter.mp hi
        rw [← of_decide_eq_true hquadrant]
        exact Cell.quarter_contains (hinside i hmem)
      obtain ⟨left, cell', members', hdepth, hrest⟩ := ih hnode hpart hquarter
      exact ⟨left, cell', members', by omega, hrest⟩

/-- A node of a tree over the points, without rounding. -/
structure Faithful (depth : ℕ) (node : QuadTree ℝ n) (region : Region ℝ) : Prop where
  shallow : depth ≤ 12
  cut : node.children = [] ∧ node.listed ≠ [] ∨ 2 ≤ node.children.length ∧ node.listed = []
  mass : region.mass = node.members.length
  center : region.center * region.mass = (node.members.map positions.get).sum
  inside : ∀ i ∈ node.members, region.cell.contains (positions.get i) = true
  nested : ∀ child ∈ node.children, ∃ part, child.region? = some part ∧
    ∀ p, part.cell.contains p = true → region.cell.contains p = true

theorem faithful_grow {depth levels : ℕ} {cell : Cell ℝ} {members : List (Fin n)} (hdepth : depth + levels = maxLevels)
    (hne : members ≠ []) (hinside : ∀ i ∈ members, cell.contains (positions.get i) = true) :
    Faithful positions depth (grow positions levels cell members) (regionOf positions cell members) := by
  have hperm := members_grow positions levels cell members
  have hfits := (regionOf_fits positions cell members hne hinside).of_perm hperm
  refine ⟨?_, ?_, hfits.mass, ?_, hfits.inside, ?_⟩
  · have : maxLevels = 12 := rfl
    omega
  · rcases grow_cut positions levels cell members with ⟨hchildren, hlisted⟩ | hcut
    · exact Or.inl ⟨hchildren, by rwa [hlisted]⟩
    · exact Or.inr hcut
  · have hmass : (regionOf positions cell members).mass ≠ 0 := by
      rw [hfits.mass, Nat.cast_ne_zero]
      exact fun hzero => hfits.inhabited (List.length_eq_zero_iff.mp hzero)
    rw [hfits.mean]
    ext
    · exact div_mul_cancel₀ _ hmass
    · exact div_mul_cancel₀ _ hmass
  · intro child hchild
    obtain ⟨below, right, lower, rfl, -, rfl⟩ := mem_children_grow positions hchild
    exact ⟨_, region?_grow positions _ _ _, fun p hp => Cell.contains_of_quarter hp⟩

/-- A tree is built exactly if there are points and all of them are finite, whatever the numbers are. -/
theorem build_eq_none_iff_exists {α : Type} [Scalar α] (positions : Vector (Vec α) n) :
    build positions = none ↔ n = 0 ∨ ∃ i, (positions.get i).isFinite = false := by
  have hall : positions.toList.all Vec.isFinite = false ↔ ∃ i, (positions.get i).isFinite = false := by
    rw [← Bool.not_eq_true, List.all_eq_true]
    simp [Vector.get_eq_getElem, Vector.mem_iff_getElem, Fin.exists_iff]
  rw [build, Option.map_eq_none_iff, ← hall]
  have hlength : positions.toList.length = n := positions.length_toList
  cases hpoints : positions.toList with
  | nil =>
    rw [hpoints] at hlength
    exact iff_of_true rfl (Or.inl hlength.symm)
  | cons first rest =>
    rw [hpoints] at hlength
    have hn : n ≠ 0 := by
      rw [← hlength]
      exact Nat.succ_ne_zero _
    rw [or_iff_right hn, Cell.around]
    by_cases hfinite : (first :: rest).all Vec.isFinite = true <;> simp [hfinite]

/-- Without rounding every list of points has a tree. Its leaves list all points, each once, and each of its nodes, at
most twelve levels down, lists points or is cut into at least two nodes. The mass of a node is the number of the points
below it, the mass times the center is their sum, they all lie in its cell, and so do the cells of the nodes below it.
There is no tree without points, or with a point that is not finite. -/
theorem build_partitions_points (n : ℕ) :
    (∀ positions : Vector (Vec ℝ) (n + 1), ∃ tree, build positions = some tree ∧
      tree.members.Perm (List.finRange (n + 1)) ∧
      ∀ depth node, NodeAt depth tree node →
        ∃ region, node.region? = some region ∧ Faithful positions depth node region) ∧
    ∀ (α : Type) [Scalar α] (positions : Vector (Vec α) n),
      build positions = none ↔ n = 0 ∨ ∃ i, (positions.get i).isFinite = false := by
  refine ⟨fun positions => ?_, fun α _ positions => build_eq_none_iff_exists positions⟩
  obtain ⟨tree, htree⟩ := Option.ne_none_iff_exists'.mp
    (mt (build_eq_none_iff positions).mp (Nat.succ_ne_zero n))
  refine ⟨tree, htree, members_build positions htree, fun depth node hnode => ?_⟩
  obtain ⟨cell, hcell, rfl⟩ := (build_eq_some_iff positions tree).mp htree
  have hinside : ∀ i ∈ List.finRange (n + 1), cell.contains (positions.get i) = true := fun i _ =>
    Cell.around_contains hcell _ (by simp [Vector.get_eq_getElem])
  have hne : List.finRange (n + 1) ≠ [] := List.ne_nil_of_mem (List.mem_finRange 0)
  obtain ⟨left, cell', members', hdepth, hne', hinside', rfl⟩ := nodeAt_grow positions hnode hne hinside
  exact ⟨_, region?_grow positions _ _ _, faithful_grow positions hdepth hne' hinside'⟩

end QuadTree

end CallAtlas
