import Mathlib
import CallAtlas.Physics.Charge
import CallAtlas.Proofs.Physics.Regions

/-! What acts on a node through a region tree accounts for every other node once, without rounding.

A source is a single node or a whole region (`StandsFor`). The nodes behind the sources of a node are all others
(`sources_parts`): a region that contains the node is never taken as one, since it contains the place of the node. Each
source adds what the nodes behind it add in the place of their mean (`StandsFor.effect_eq_pull`). -/

namespace CallAtlas

set_option autoImplicit false

variable {n : ℕ}

namespace QuadTree

def region? {α : Type} : QuadTree α n → Option (Region α)
  | .empty => none
  | .leaf region _ => some region
  | .branch region _ _ _ _ => some region

end QuadTree

namespace Charge

variable (positions : Vector (Vec ℝ) n)

/-- The nodes that a source stands for when it acts on `i`: a single node for itself, and a region of the tree for all
nodes below it. Such a region lies elsewhere, has several nodes, and knows their number and their mean. -/
inductive StandsFor (tree : QuadTree ℝ n) (i : Fin n) : Source ℝ n → List (Fin n) → Prop
  | node (j : Fin n) : StandsFor tree i (.node j) [j]
  | region {r : Region ℝ} {cell : QuadTree ℝ n} (below : cell ∈ tree.subtrees) (hregion : cell.region? = some r)
      (outside : r.cell.contains (positions.get i) = false) (absent : i ∉ cell.members)
      (several : 1 < cell.members.length) (mass : r.mass = cell.members.length)
      (mean : r.center = (cell.members.map positions.get).sum / (cell.members.length : ℝ)) :
    StandsFor tree i (.region r) cell.members

/-- What some nodes add to the velocity of `i`: a single node what it adds by itself, and several nodes what as many
would add in the place of their mean. -/
noncomputable def pull (strength : ℝ) (i : Fin n) (nodes : List (Fin n)) : Vec ℝ :=
  match nodes with
  | [j] => between strength (positions.get i) (positions.get j) i j
  | nodes =>
    let count : ℝ := nodes.length
    let apart := (nodes.map positions.get).sum / count - positions.get i
    apart * (strength * count / max apart.lengthSq 1)

theorem pull_of_several (strength : ℝ) (i : Fin n) {nodes : List (Fin n)} (h : 1 < nodes.length) :
    pull positions strength i nodes =
      let count : ℝ := nodes.length
      let apart := (nodes.map positions.get).sum / count - positions.get i
      apart * (strength * count / max apart.lengthSq 1) := by
  unfold pull
  split
  · simp at h
  · rfl

theorem StandsFor.effect_eq_pull {tree : QuadTree ℝ n} {i : Fin n} {source : Source ℝ n} {nodes : List (Fin n)}
    (h : StandsFor positions tree i source nodes) (strength : ℝ) :
    effect strength positions i source = pull positions strength i nodes := by
  cases h with
  | node j => rfl
  | region _ _ _ _ several mass mean =>
    have hone : (minDistanceSq : ℝ) = 1 := by norm_num [minDistanceSq]
    rw [effect, regionDistanceSq, Scalar.larger_real, hone, mass, mean, pull_of_several positions strength i several]

theorem filter_ne_eq_self (members : List (Fin n)) (i : Fin n) (h : i ∉ members) :
    members.filter (· ≠ i) = members :=
  List.filter_eq_self.mpr fun j hj => by simpa using fun hji : j = i => h (hji ▸ hj)

/-- Behind the sources of a node in a part of a tree are the other nodes of that part, in their order. -/
theorem sources_parts (theta : ℝ) (tree : QuadTree ℝ n) (i : Fin n) (t : QuadTree ℝ n) (ht : t.Sound positions)
    (hsub : ∀ s ∈ t.subtrees, s ∈ tree.subtrees) :
    ∃ parts, List.Forall₂ (StandsFor positions tree i) (sources theta positions i t) parts ∧
      parts.flatten = t.members.filter (· ≠ i) := by
  induction t with
  | empty => exact ⟨[], .nil, rfl⟩
  | leaf r members =>
    refine ⟨(members.filter (· ≠ i)).map fun j => [j], ?_, ?_⟩
    · rw [sources, List.forall₂_map_left_iff, List.forall₂_map_right_iff, List.forall₂_same]
      exact fun j _ => .node j
    · rw [← List.flatMap_def]
      exact List.flatMap_singleton' _
  | branch r a b c d iha ihb ihc ihd =>
    obtain ⟨hfits, ha, hb, hc, hd⟩ := ht
    by_cases hone : actsAsOne theta r (positions.get i)
    · have houtside : r.cell.contains (positions.get i) = false := by
        simp only [actsAsOne, Bool.and_eq_true, Bool.not_eq_true'] at hone
        exact hone.1.1
      have habsent : i ∉ (QuadTree.branch r a b c d).members := fun hi =>
        Bool.false_ne_true (houtside.symm.trans (hfits.inside i hi))
      have hseveral : 1 < (QuadTree.branch r a b c d).members.length := by
        have hmass : (1.0 : ℝ) < r.mass := by
          simp only [actsAsOne, Bool.and_eq_true, decide_eq_true_eq] at hone
          exact hone.2
        have hcount : ((1 : ℕ) : ℝ) < (QuadTree.branch r a b c d).members.length := by
          calc ((1 : ℕ) : ℝ) = 1.0 := by norm_num
            _ < r.mass := hmass
            _ = (QuadTree.branch r a b c d).members.length := hfits.mass
        exact Nat.cast_lt.mp hcount
      refine ⟨[(QuadTree.branch r a b c d).members], ?_, ?_⟩
      · rw [sources, if_pos hone]
        exact .cons (.region (hsub _ (QuadTree.mem_subtrees_self _)) rfl houtside habsent hseveral hfits.mass
          (hfits.mass ▸ hfits.mean)) .nil
      · rw [filter_ne_eq_self _ i habsent, List.flatten_singleton]
    · simp only [QuadTree.subtrees, List.mem_cons, List.mem_append] at hsub
      obtain ⟨pa, hpa, hea⟩ := iha ha fun s hs => hsub s (by simp [hs])
      obtain ⟨pb, hpb, heb⟩ := ihb hb fun s hs => hsub s (by simp [hs])
      obtain ⟨pc, hpc, hec⟩ := ihc hc fun s hs => hsub s (by simp [hs])
      obtain ⟨pd, hpd, hed⟩ := ihd hd fun s hs => hsub s (by simp [hs])
      refine ⟨pa ++ pb ++ pc ++ pd, ?_, ?_⟩
      · rw [sources, if_neg hone]
        exact List.rel_append (List.rel_append (List.rel_append hpa hpb) hpc) hpd
      · simp only [List.flatten_append, QuadTree.members, List.filter_append, hea, heb, hec, hed]

/-! ## No region acts as one -/

theorem actsAsOne_of_nonpos {theta : ℝ} (htheta : theta ≤ 0) {members : List (Fin n)} {r : Region ℝ}
    (hfits : r.Fits positions members) (point : Vec ℝ) : actsAsOne theta r point = false := by
  obtain ⟨j, hj⟩ := List.exists_mem_of_ne_nil _ hfits.inhabited
  have hside : 0 ≤ r.cell.sideLength := by
    have hhalf := Cell.half_nonneg (hfits.inside j hj)
    rw [Cell.sideLength]
    exact mul_nonneg hhalf (by norm_num)
  have hratio : ¬ r.cell.sideLength / Scalar.sqrt (regionDistanceSq r point) < theta :=
    not_lt.mpr (htheta.trans (div_nonneg hside (Real.sqrt_nonneg _)))
  simp only [actsAsOne, hratio, decide_false, Bool.and_false, Bool.false_and]

theorem sources_of_nonpos {theta : ℝ} (htheta : theta ≤ 0) (i : Fin n) (t : QuadTree ℝ n) (ht : t.Sound positions) :
    sources theta positions i t = (t.members.filter (· ≠ i)).map .node := by
  induction t with
  | empty => rfl
  | leaf r members => rfl
  | branch r a b c d iha ihb ihc ihd =>
    obtain ⟨hfits, ha, hb, hc, hd⟩ := ht
    rw [sources, if_neg (by rw [actsAsOne_of_nonpos positions htheta hfits]; exact Bool.false_ne_true), iha ha, ihb hb,
      ihc hc, ihd hd]
    simp only [QuadTree.members, List.filter_append, List.map_append]

/-! ## Everything that acts on a node -/

theorem accumulate_eq_sum (strength theta : ℝ) (tree : QuadTree ℝ n) (i : Fin n) (velocity : Vec ℝ) :
    accumulate strength theta positions tree i velocity =
      velocity + ((sources theta positions i tree).map (effect strength positions i)).sum :=
  Vec.foldl_add_eq _ _ _

theorem others_perm {tree : QuadTree ℝ n} (h : QuadTree.build positions = some tree) (i : Fin n) :
    (tree.members.filter (· ≠ i)).Perm ((List.finRange n).erase i) := by
  have herase : (List.finRange n).erase i = (List.finRange n).filter (· ≠ i) := by
    rw [(List.nodup_finRange n).erase_eq_filter]
    exact List.filter_congr fun j _ => by simp [bne, Bool.beq_eq_decide_eq]
  rw [herase]
  exact (QuadTree.members_build positions h).filter _

theorem sum_others (f : Fin n → Vec ℝ) (i : Fin n) :
    (((List.finRange n).erase i).map f).sum = ∑ j ∈ Finset.univ.erase i, f j := by
  rw [← List.sum_toFinset f ((List.nodup_finRange n).erase i)]
  congr 1
  ext j
  simp [(List.nodup_finRange n).mem_erase_iff]

/-- Every node but `i` is behind exactly one of the sources of `i`, on its own or in a region that acts with the number
and the mean of its nodes, and the change of velocity is what these parts add. If no region may look small, it is the
sum over all other nodes. -/
theorem sources_account_for_others (strength theta : ℝ) (i : Fin n) (velocity : Vec ℝ) :
    ∃ tree parts, QuadTree.build positions = some tree ∧
      List.Forall₂ (fun source part => StandsFor positions tree i source part ∧
        effect strength positions i source = pull positions strength i part) (sources theta positions i tree) parts ∧
      parts.flatten.Perm ((List.finRange n).erase i) ∧
      accumulate strength theta positions tree i velocity =
        velocity + (parts.map (pull positions strength i)).sum ∧
      (theta ≤ 0 →
        accumulate strength theta positions tree i velocity =
          velocity + ∑ j ∈ Finset.univ.erase i, between strength (positions.get i) (positions.get j) i j) := by
  have hsome : QuadTree.build positions ≠ none := fun hnone =>
    i.pos.ne' ((QuadTree.build_eq_none_iff positions).mp hnone)
  obtain ⟨tree, htree⟩ := Option.ne_none_iff_exists'.mp hsome
  have hsound := QuadTree.build_sound htree
  obtain ⟨parts, hparts, hflatten⟩ := sources_parts positions theta tree i tree hsound fun _ => id
  have hothers := others_perm positions htree i
  have hpulls : (sources theta positions i tree).map (effect strength positions i) =
      parts.map (pull positions strength i) := by
    rw [← List.forall₂_eq_eq_eq, List.forall₂_map_left_iff, List.forall₂_map_right_iff]
    exact hparts.imp fun _ _ hpart => hpart.effect_eq_pull positions strength
  refine ⟨tree, parts, htree, hparts.imp fun _ _ hpart => ⟨hpart, hpart.effect_eq_pull positions strength⟩,
    hflatten ▸ hothers, ?_, fun htheta => ?_⟩
  · rw [accumulate_eq_sum, hpulls]
  · calc accumulate strength theta positions tree i velocity
        = velocity + ((tree.members.filter (· ≠ i)).map fun j =>
            between strength (positions.get i) (positions.get j) i j).sum := by
          rw [accumulate_eq_sum, sources_of_nonpos positions htheta i tree hsound, List.map_map]
          rfl
      _ = velocity + ∑ j ∈ Finset.univ.erase i, between strength (positions.get i) (positions.get j) i j := by
          rw [(hothers.map _).sum_eq, sum_others]

/-! ## A cluster that acts as one -/

/-- A point, and nine points far away from it, one of which lies apart from the others. -/
noncomputable def cluster : Vector (Vec ℝ) 10 :=
  Vector.ofFn fun i => if i = 0 then ⟨-31, -31⟩ else if i = 9 then ⟨1, 1⟩ else ⟨31, 31⟩

theorem cluster_get (i : Fin 10) :
    cluster.get i = if i = 0 then ⟨-31, -31⟩ else if i = 9 then ⟨1, 1⟩ else ⟨31, 31⟩ := by
  simp [cluster, Vector.get_eq_getElem]

theorem toList_cluster :
    cluster.toList = ⟨-31, -31⟩ :: List.replicate 8 ⟨31, 31⟩ ++ [⟨1, 1⟩] := by
  rw [cluster, Vector.toList_ofFn]
  rfl

theorem around_cluster : Cell.around cluster.toList = some ⟨⟨0, 0⟩, 32⟩ := by
  have hfinite : ∀ points : List (Vec ℝ), points.all Vec.isFinite = true :=
    fun points => List.all_eq_true.mpr fun p _ => p.isFinite_real
  rw [toList_cluster]
  simp only [List.cons_append, Cell.around, hfinite, if_true, List.replicate, List.nil_append, List.foldl_cons,
    List.foldl_nil, Vec.smaller, Vec.larger, Scalar.smaller_real, Scalar.larger_real]
  norm_num [Vec.maxComponent, Scalar.larger_real]
  ext <;> norm_num

theorem quadrantOf_cluster (i : Fin 10) :
    (⟨⟨0, 0⟩, 32⟩ : Cell ℝ).quadrantOf (cluster.get i) = if i = 0 then ⟨false, false⟩ else ⟨true, true⟩ := by
  rw [cluster_get]
  split
  · norm_num [Cell.quadrantOf]
  · split <;> norm_num [Cell.quadrantOf]

/-- The nine points that lie together. -/
def far : List (Fin 10) := (List.finRange 10).erase 0

theorem inQuadrant_cluster (right lower : Bool) :
    QuadTree.inQuadrant cluster ⟨⟨0, 0⟩, 32⟩ (List.finRange 10) right lower =
      if right = lower then (if right then far else [0]) else [] := by
  have hsorted : QuadTree.inQuadrant cluster ⟨⟨0, 0⟩, 32⟩ (List.finRange 10) right lower =
      (List.finRange 10).filter fun i =>
        (if i = 0 then ⟨false, false⟩ else ⟨true, true⟩ : Cell.Quadrant) = ⟨right, lower⟩ :=
    List.filter_congr fun i _ => by rw [quadrantOf_cluster]
  rw [hsorted]
  cases right <;> cases lower <;> decide

theorem quarter_cluster : (⟨⟨0, 0⟩, 32⟩ : Cell ℝ).quarter ⟨true, true⟩ = ⟨⟨16, 16⟩, 16⟩ := by
  refine congrArg₂ Cell.mk (Vec.ext ?_ ?_) ?_ <;> norm_num

theorem build_cluster : QuadTree.build cluster =
    some (.branch (QuadTree.regionOf cluster ⟨⟨0, 0⟩, 32⟩ (List.finRange 10))
      (.leaf (QuadTree.regionOf cluster ((⟨⟨0, 0⟩, 32⟩ : Cell ℝ).quarter ⟨false, false⟩) [0]) [0]) .empty .empty
      (QuadTree.grow cluster 11 ⟨⟨16, 16⟩, 16⟩ far)) := by
  rw [QuadTree.build, around_cluster, Option.map_some, QuadTree.maxLevels, QuadTree.grow]
  simp only [inQuadrant_cluster]
  rw [if_neg (by decide), if_neg (by decide), quarter_cluster]
  rfl

theorem quadrantOf_far {i : Fin 10} (hi : i ∈ far) :
    (⟨⟨16, 16⟩, 16⟩ : Cell ℝ).quadrantOf (cluster.get i) = if i = 9 then ⟨false, false⟩ else ⟨true, true⟩ := by
  have hne : i ≠ 0 := by
    rintro rfl
    exact absurd hi (by decide)
  rw [cluster_get, if_neg hne]
  split <;> norm_num [Cell.quadrantOf]

/-- The nine points go into two quarters of their cell, so it is cut. -/
theorem grow_far : ∃ a b c d, QuadTree.grow cluster 11 ⟨⟨16, 16⟩, 16⟩ far =
    .branch (QuadTree.regionOf cluster ⟨⟨16, 16⟩, 16⟩ far) a b c d := by
  have hsorted (right lower : Bool) : QuadTree.inQuadrant cluster ⟨⟨16, 16⟩, 16⟩ far right lower =
      far.filter fun i => (if i = 9 then ⟨false, false⟩ else ⟨true, true⟩ : Cell.Quadrant) = ⟨right, lower⟩ :=
    List.filter_congr fun i hi => by rw [quadrantOf_far hi]
  rw [QuadTree.grow]
  simp only [hsorted]
  rw [if_neg (by decide), if_neg (by decide)]
  exact ⟨_, _, _, _, rfl⟩

theorem sum_far : (far.map cluster.get).sum = ⟨249, 249⟩ := by
  have hplaces : far.map cluster.get = List.replicate 8 ⟨31, 31⟩ ++ [⟨1, 1⟩] :=
    (List.map_congr_left fun i _ => cluster_get i).trans rfl
  rw [hplaces]
  ext <;> norm_num [List.replicate]

/-- The point lies outside the cell of the others, which is small from there. -/
theorem actsAsOne_far :
    actsAsOne 0.9 (QuadTree.regionOf cluster ⟨⟨16, 16⟩, 16⟩ far) (cluster.get 0) = true := by
  have hmean : (QuadTree.regionOf cluster ⟨⟨16, 16⟩, 16⟩ far).center = ⟨249 / 9, 249 / 9⟩ := by
    rw [QuadTree.regionOf, Vec.foldl_add_eq, Vec.zero_eq, zero_add, sum_far, show far.length = 9 by decide]
    ext <;> norm_num
  have hdistance : regionDistanceSq (QuadTree.regionOf cluster ⟨⟨16, 16⟩, 16⟩ far) (cluster.get 0) = 61952 / 9 := by
    rw [regionDistanceSq, hmean, cluster_get]
    norm_num [Vec.lengthSq, minDistanceSq, Scalar.larger_real]
  have houtside : (⟨⟨16, 16⟩, 16⟩ : Cell ℝ).contains (cluster.get 0) = false := by
    rw [← Bool.not_eq_true, Cell.contains_iff, cluster_get]
    norm_num
  have hsmall : (⟨⟨16, 16⟩, 16⟩ : Cell ℝ).sideLength / √(61952 / 9) < 0.9 := by
    rw [div_lt_iff₀ (by positivity), Cell.sideLength, ← div_lt_iff₀' (by norm_num)]
    exact Real.lt_sqrt_of_sq_lt (by norm_num)
  rw [actsAsOne, hdistance, Bool.and_eq_true, Bool.and_eq_true, Bool.not_eq_true', decide_eq_true_eq, decide_eq_true_eq]
  refine ⟨⟨houtside, hsmall⟩, ?_⟩
  norm_num [QuadTree.regionOf, show far.length = 9 by decide]

theorem sources_cluster {tree : QuadTree ℝ 10} (h : QuadTree.build cluster = some tree) :
    sources 0.9 cluster 0 tree = [.region (QuadTree.regionOf cluster ⟨⟨16, 16⟩, 16⟩ far)] := by
  rw [build_cluster, Option.some.injEq] at h
  obtain ⟨a, b, c, d, hfar⟩ := grow_far
  have htop : actsAsOne 0.9 (QuadTree.regionOf cluster ⟨⟨0, 0⟩, 32⟩ (List.finRange 10)) (cluster.get 0) = false := by
    have hinside : (⟨⟨0, 0⟩, 32⟩ : Cell ℝ).contains (cluster.get 0) = true := by
      rw [Cell.contains_iff, cluster_get]
      norm_num
    rw [actsAsOne, QuadTree.regionOf, hinside]
    rfl
  rw [← h, hfar, sources, if_neg (by rw [htop]; exact Bool.false_ne_true), sources, sources, sources,
    if_pos actsAsOne_far]
  rfl

/-- Seen from the point, the cell of the nine others acts with all of them at their mean. If no region may look small,
each of them acts by itself. -/
theorem cluster_accumulate :
    (∃ tree r, QuadTree.build cluster = some tree ∧ sources 0.9 cluster 0 tree = [.region r] ∧
      accumulate (-30) 0.9 cluster tree 0 0 = ⟨-405 / 176, -405 / 176⟩) ∧
    (0 : ℝ) ≤ 0 ∧ ∃ tree, QuadTree.build cluster = some tree ∧
      accumulate (-30) 0 cluster tree 0 0 =
        0 + ∑ j ∈ Finset.univ.erase 0, between (-30) (cluster.get 0) (cluster.get j) (0 : Fin 10) j := by
  constructor
  · obtain ⟨tree, parts, htree, hparts, hperm, hsum, -⟩ := sources_account_for_others cluster (-30) 0.9 0 0
    have hsources := sources_cluster htree
    rw [hsources] at hparts
    obtain ⟨part, rest, -, hrest, rfl⟩ := List.forall₂_cons_left_iff.mp hparts
    cases hrest
    rw [List.flatten_singleton] at hperm
    have hlength : part.length = 9 := hperm.length_eq.trans (by decide)
    refine ⟨tree, _, htree, hsources, ?_⟩
    rw [hsum, zero_add, List.map_singleton, List.sum_singleton, pull_of_several _ _ _ (by rw [hlength]; decide),
      (hperm.map cluster.get).sum_eq, ← far, sum_far, hlength, cluster_get]
    ext <;> norm_num [Vec.lengthSq]
  · obtain ⟨tree, -, htree, -, -, -, hsum⟩ := sources_account_for_others cluster (-30) 0 0 0
    exact ⟨le_refl 0, tree, htree, hsum (le_refl 0)⟩

end Charge

end CallAtlas
