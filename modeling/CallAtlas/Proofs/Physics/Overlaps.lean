import Mathlib
import CallAtlas.Physics.Collision
import CallAtlas.Proofs.Physics.Regions

/-! Pushing apart through a region tree is pushing apart every two nodes, without rounding.

* `count_pairsBetween`, `count_pairs`: how often the walk through a tree comes to two given nodes. It never comes to
  them twice, and passes over them only if their cells, hence the nodes, are out of reach.
* `separate_get`: what one pair adds to the impulse of each node. It does not depend on which of the two is first. -/

namespace CallAtlas.Collision

set_option autoImplicit false

variable {n : ℕ}

/-! ## How often two nodes meet -/

theorem count_map_pair (k : Fin n) (members : List (Fin n)) (i j : Fin n) :
    (members.map fun l => (k, l)).count (i, j) = if k = i then members.count j else 0 := by
  split
  · next h =>
    subst h
    exact List.count_map_of_injective _ _ (Prod.mk_right_injective k) j
  · next h => exact List.count_eq_zero.mpr fun hmem => h (by obtain ⟨_, _, he⟩ := List.mem_map.mp hmem; cases he; rfl)

theorem count_product (members members' : List (Fin n)) (i j : Fin n) :
    (members.flatMap fun k => members'.map fun l => (k, l)).count (i, j) = members.count i * members'.count j := by
  induction members with
  | nil => simp
  | cons k rest ih =>
    rw [List.flatMap_cons, List.count_append, ih, count_map_pair, List.count_cons]
    by_cases h : k = i
    · simp only [h, if_true, beq_self_eq_true]
      ring
    · simp [h]

/-- The pairs of a list hold two of its members in one order or the other, and a member with itself only where it is
repeated. -/
theorem count_pairsOf (members : List (Fin n)) (i j : Fin n) :
    (pairsOf members).count (i, j) + (pairsOf members).count (j, i) + (if i = j then members.count i else 0) =
      members.count i * members.count j := by
  induction members with
  | nil => simp [pairsOf]
  | cons k rest ih =>
    simp only [pairsOf, List.count_append, count_map_pair, List.count_cons, beq_iff_eq]
    by_cases hij : i = j
    · subst hij
      by_cases hki : k = i
      · simp only [if_pos hki, if_true] at ih ⊢
        linarith
      · simp only [if_neg hki, if_true] at ih ⊢
        linarith
    · by_cases hki : k = i
      · have hkj : k ≠ j := fun h => hij (hki.symm.trans h)
        simp only [if_neg hij, if_pos hki, if_neg hkj] at ih ⊢
        linarith
      · by_cases hkj : k = j
        · simp only [if_neg hij, if_neg hki, if_pos hkj] at ih ⊢
          linarith
        · simp only [if_neg hij, if_neg hki, if_neg hkj] at ih ⊢
          linarith

/-- A count that stays within a bound and reaches it if `near`. -/
def Fills (near : Prop) (bound count : ℕ) : Prop := count ≤ bound ∧ (near → count = bound)

theorem Fills.of_eq {near : Prop} {bound count : ℕ} (h : count = bound) : Fills near bound count := ⟨h.le, fun _ => h⟩

theorem Fills.zero {near : Prop} {bound : ℕ} (h : near → bound = 0) : Fills near bound 0 :=
  ⟨Nat.zero_le _, fun hnear => (h hnear).symm⟩

theorem Fills.add {near : Prop} {bound bound' count count' : ℕ} (h : Fills near bound count)
    (h' : Fills near bound' count') : Fills near (bound + bound') (count + count') :=
  ⟨Nat.add_le_add h.1 h'.1, fun hnear => by rw [h.2 hnear, h'.2 hnear]⟩

/-- Two nodes within reach of each other. -/
def Near (positions : Vector (Vec ℝ) n) (reachSq : ℝ) (i j : Fin n) : Prop :=
  (positions.get i - positions.get j).lengthSq ≤ reachSq

theorem near_comm (positions : Vector (Vec ℝ) n) (reachSq : ℝ) (i j : Fin n) :
    Near positions reachSq i j ↔ Near positions reachSq j i := by
  rw [Near, Near, ← Vec.lengthSq_neg, neg_sub]

/-- Cells out of reach of each other have no nodes within reach. -/
theorem count_mul_count_eq_zero {positions : Vector (Vec ℝ) n} {reachSq : ℝ} {r r' : Region ℝ}
    {members members' : List (Fin n)} (h : r.Fits positions members) (h' : r'.Fits positions members')
    (hapart : reachSq < r.cell.distanceSq r'.cell) {i j : Fin n} (hnear : Near positions reachSq i j) :
    members.count i * members'.count j = 0 := by
  rw [Nat.mul_eq_zero, List.count_eq_zero, List.count_eq_zero]
  by_contra hboth
  push Not at hboth
  have hdistance := Cell.distanceSq_le (h.inside i hboth.1) (h'.inside j hboth.2)
  exact absurd (hapart.trans_le hdistance) (not_lt.mpr hnear)

/-- The walk through two trees pairs a node of one with a node of the other at most once, and does so if they are
within reach. -/
theorem count_pairsBetween (positions : Vector (Vec ℝ) n) (reachSq : ℝ) (a b : QuadTree ℝ n)
    (ha : a.Sound positions) (hb : b.Sound positions) (i j : Fin n) :
    Fills (Near positions reachSq i j) (a.members.count i * b.members.count j)
      ((pairsBetween reachSq a b).count (i, j)) := by
  fun_induction pairsBetween reachSq a b with
  | case1 => exact Fills.of_eq (by simp [QuadTree.members])
  | case2 => exact Fills.of_eq (by simp [QuadTree.members])
  | case3 r members r' members' hapart => exact Fills.zero (count_mul_count_eq_zero ha hb hapart)
  | case4 r members r' members' hapart => exact Fills.of_eq (count_product members members' i j)
  | case5 r members r' a b c d hapart => exact Fills.zero (count_mul_count_eq_zero ha hb.1 hapart)
  | case6 r members r' a b c d hapart iha ihb ihc ihd =>
    simp only [QuadTree.members, List.count_append, mul_add]
    exact (((iha ha hb.2.1).add (ihb ha hb.2.2.1)).add (ihc ha hb.2.2.2.1)).add (ihd ha hb.2.2.2.2)
  | case7 r a b c d r' members hapart => exact Fills.zero (count_mul_count_eq_zero ha.1 hb hapart)
  | case8 r a b c d r' members hapart iha ihb ihc ihd =>
    simp only [QuadTree.members, List.count_append, add_mul]
    exact (((iha ha.2.1 hb).add (ihb ha.2.2.1 hb)).add (ihc ha.2.2.2.1 hb)).add (ihd ha.2.2.2.2 hb)
  | case9 r a b c d r' a' b' c' d' hapart => exact Fills.zero (count_mul_count_eq_zero ha.1 hb.1 hapart)
  | case10 r a b c d r' a' b' c' d' hapart hlarger iha ihb ihc ihd =>
    simp only [QuadTree.members, List.count_append, add_mul] at iha ihb ihc ihd ⊢
    exact (((iha ha.2.1 hb).add (ihb ha.2.2.1 hb)).add (ihc ha.2.2.2.1 hb)).add (ihd ha.2.2.2.2 hb)
  | case11 r a b c d r' a' b' c' d' hapart hlarger iha ihb ihc ihd =>
    simp only [QuadTree.members, List.count_append, mul_add] at iha ihb ihc ihd ⊢
    exact (((iha ha hb.2.1).add (ihb ha hb.2.2.1)).add (ihc ha hb.2.2.2.1)).add (ihd ha hb.2.2.2.2)

/-- The walk through one tree takes the same two nodes as often as they are in it, in one order or the other. -/
theorem count_pairs (positions : Vector (Vec ℝ) n) (reachSq : ℝ) (tree : QuadTree ℝ n) (h : tree.Sound positions)
    (i j : Fin n) :
    Fills (Near positions reachSq i j) (tree.members.count i * tree.members.count j)
      ((pairs reachSq tree).count (i, j) + (pairs reachSq tree).count (j, i) +
        if i = j then tree.members.count i else 0) := by
  induction tree with
  | empty => exact Fills.of_eq (by simp [QuadTree.members, pairs])
  | leaf r members => exact Fills.of_eq (count_pairsOf members i j)
  | branch r a b c d iha ihb ihc ihd =>
    obtain ⟨_, ha, hb, hc, hd⟩ := h
    have hbetween : ∀ s t : QuadTree ℝ n, s.Sound positions → t.Sound positions →
        Fills (Near positions reachSq i j) (s.members.count i * t.members.count j + s.members.count j * t.members.count i)
          ((pairsBetween reachSq s t).count (i, j) + (pairsBetween reachSq s t).count (j, i)) := by
      intro s t hs ht
      have hflip := count_pairsBetween positions reachSq s t hs ht j i
      rw [near_comm] at hflip
      exact (count_pairsBetween positions reachSq s t hs ht i j).add hflip
    have hsum := (((iha ha).add (ihb hb)).add (ihc hc)).add (ihd hd)
    have hcross := (((((hbetween a b ha hb).add (hbetween a c ha hc)).add (hbetween a d ha hd)).add
      (hbetween b c hb hc)).add (hbetween b d hb hd)).add (hbetween c d hc hd)
    have hall := hsum.add hcross
    simp only [QuadTree.members, pairs, List.count_append]
    have hbound : ∀ p q r s p' q' r' s' : ℕ, (p + q + r + s) * (p' + q' + r' + s') =
        p * p' + q * q' + r * r' + s * s' + (p * q' + p' * q + (p * r' + p' * r) + (p * s' + p' * s) +
          (q * r' + q' * r) + (q * s' + q' * s) + (r * s' + r' * s)) := by
      intros
      ring
    rw [hbound]
    convert hall using 1
    split <;> ring

/-- In the tree over all nodes, two different nodes meet at most once, and do so if they are within reach. No node
meets itself. -/
theorem count_pairs_build {positions : Vector (Vec ℝ) n} {tree : QuadTree ℝ n} (h : QuadTree.build positions = some tree)
    (reachSq : ℝ) (i j : Fin n) :
    Fills (Near positions reachSq i j) (if i = j then 0 else 1)
      ((pairs reachSq tree).count (i, j) + (pairs reachSq tree).count (j, i)) := by
  have hone : ∀ k, tree.members.count k = 1 := fun k => by
    rw [(QuadTree.members_build positions h).count_eq]
    exact List.count_eq_one_of_mem (List.nodup_finRange n) (List.mem_finRange k)
  have hfills := count_pairs positions reachSq tree (QuadTree.build_sound h) i j
  rw [hone, hone] at hfills
  by_cases hij : i = j
  · rw [if_pos hij] at hfills ⊢
    exact ⟨Nat.le_of_add_le_add_right hfills.1, fun hnear => Nat.add_right_cancel (hfills.2 hnear)⟩
  · rw [if_neg hij] at hfills ⊢
    exact hfills

theorem count_pairs_self {positions : Vector (Vec ℝ) n} {tree : QuadTree ℝ n} (h : QuadTree.build positions = some tree)
    (reachSq : ℝ) (i : Fin n) : (pairs reachSq tree).count (i, i) = 0 := by
  have hle := (count_pairs_build h reachSq i i).1
  rw [if_pos rfl] at hle
  omega

theorem count_pairs_once_or_far {positions : Vector (Vec ℝ) n} {tree : QuadTree ℝ n}
    (h : QuadTree.build positions = some tree) (reachSq : ℝ) (i j : Fin n) (hij : i ≠ j) :
    (pairs reachSq tree).count (i, j) + (pairs reachSq tree).count (j, i) = 1 ∨
    (pairs reachSq tree).count (i, j) + (pairs reachSq tree).count (j, i) = 0 ∧
      reachSq < (positions.get i - positions.get j).lengthSq := by
  obtain ⟨hle, hfull⟩ := count_pairs_build h reachSq i j
  rw [if_neg hij] at hle hfull
  by_cases hnear : Near positions reachSq i j
  · exact Or.inl (hfull hnear)
  · rcases Nat.le_one_iff_eq_zero_or_eq_one.mp hle with hzero | hone
    · exact Or.inr ⟨hzero, lt_of_not_ge hnear⟩
    · exact Or.inl hone

/-! ## What a pair adds to the impulses -/

variable (direction : ℕ → ℕ → Vec ℝ) (radius strength : ℝ) (positions : Vector (Vec ℝ) n)

/-- The impulse of `i` from its overlap with `j`. -/
noncomputable def push (i j : Fin n) : Vec ℝ :=
  let apart := positions.get i - positions.get j
  let delta := if apart.lengthSq < coincidentSq then direction i j * (coincidentDistance : ℝ) else apart
  if reachSq radius ≤ apart.lengthSq then 0
  else delta * ((radius + radius - delta.length) / delta.length * strength) * (2⁻¹ : ℝ)

/-- What a pair adds to the impulse of `k`. -/
noncomputable def added (k : Fin n) (pair : Fin n × Fin n) : Vec ℝ :=
  if k = pair.1 then push direction radius strength positions pair.1 pair.2
  else if k = pair.2 then -push direction radius strength positions pair.1 pair.2
  else 0

theorem reachSq_eq : (radius + radius) * (radius + radius) = reachSq radius := by
  simp only [reachSq]
  norm_num
  ring

theorem separate_get (hradius : 0 < radius) (sum : Vector (Vec ℝ) n) (i j k : Fin n) (hij : i ≠ j) :
    (separate direction radius strength positions sum i j).get k =
      sum.get k + added direction radius strength positions k (i, j) := by
  have hshare : radius * radius / (radius * radius + radius * radius) = 2⁻¹ := by
    field_simp
    norm_num
  have hrest : (1.0 : ℝ) - 2⁻¹ = 2⁻¹ := by norm_num
  simp only [separate, added, push, reachSq_eq]
  rw [hshare, hrest]
  by_cases hfar : reachSq radius ≤ (positions.get i - positions.get j).lengthSq
  · simp only [if_pos hfar, neg_zero, ite_self, add_zero]
  · simp only [if_neg hfar]
    simp only [Vector.get_eq_getElem]
    have hne : (i : ℕ) ≠ j := Fin.val_ne_of_ne hij
    by_cases hi : k = i
    · rw [if_pos hi, hi, Vector.getElem_set_ne _ _ hne.symm, Vector.getElem_set_self]
    · rw [if_neg hi]
      by_cases hj : k = j
      · rw [if_pos hj, hj, Vector.getElem_set_self, Vector.getElem_set_ne _ _ hne, sub_eq_add_neg]
      · rw [if_neg hj, Vector.getElem_set_ne _ _ (Fin.val_ne_of_ne (Ne.symm hj)),
          Vector.getElem_set_ne _ _ (Fin.val_ne_of_ne (Ne.symm hi)), add_zero]

theorem push_swap (hdirection : ∀ i j, i ≠ j → direction j i = -direction i j) (i j : Fin n) (hij : i ≠ j) :
    push direction radius strength positions j i = -push direction radius strength positions i j := by
  have hswap : direction j i = -direction i j := hdirection i j fun h => hij (Fin.ext h)
  have hapart : positions.get j - positions.get i = -(positions.get i - positions.get j) := (neg_sub _ _).symm
  simp only [push, hswap, hapart, Vec.lengthSq_neg, Vec.neg_scale]
  split
  · exact neg_zero.symm
  · rw [← apply_ite (fun v : Vec ℝ => -v), Vec.length_neg, Vec.neg_scale, Vec.neg_scale]

/-- It makes no difference which of two nodes comes first. -/
theorem added_swap (hdirection : ∀ i j, i ≠ j → direction j i = -direction i j) (k : Fin n) (pair : Fin n × Fin n) :
    added direction radius strength positions k pair.swap = added direction radius strength positions k pair := by
  obtain ⟨i, j⟩ := pair
  by_cases hij : i = j
  · rw [hij]
    rfl
  · simp only [added, Prod.fst_swap, Prod.snd_swap, push_swap direction radius strength positions hdirection i j hij]
    by_cases hi : k = i
    · have hj : k ≠ j := fun h => hij (hi.symm.trans h)
      rw [if_neg hj, if_pos hi, if_pos hi, neg_neg]
    · simp only [if_neg hi]

theorem added_eq_zero_of_far (k : Fin n) (pair : Fin n × Fin n)
    (hfar : reachSq radius ≤ (positions.get pair.1 - positions.get pair.2).lengthSq) :
    added direction radius strength positions k pair = 0 := by
  simp only [added, push, if_pos hfar, neg_zero, ite_self]

theorem foldl_separate_get (hradius : 0 < radius) (list : List (Fin n × Fin n)) (hlist : ∀ pair ∈ list, pair.1 ≠ pair.2)
    (sum : Vector (Vec ℝ) n) (k : Fin n) :
    (list.foldl (fun sum pair => separate direction radius strength positions sum pair.1 pair.2) sum).get k =
      sum.get k + (list.map (added direction radius strength positions k)).sum := by
  induction list generalizing sum with
  | nil => exact (add_zero _).symm
  | cons pair rest ih =>
    rw [List.foldl_cons, ih fun pair' hpair' => hlist pair' (List.mem_cons_of_mem pair hpair'),
      separate_get direction radius strength positions hradius sum _ _ k (hlist pair List.mem_cons_self),
      List.map_cons, List.sum_cons, add_assoc]

/-! ## Sums over pairs -/

theorem sum_map_eq_sum_count (f : Fin n × Fin n → Vec ℝ) (list : List (Fin n × Fin n)) :
    (list.map f).sum = ∑ pair : Fin n × Fin n, list.count pair • f pair := by
  induction list with
  | nil => simp
  | cons first rest ih =>
    simp only [List.map_cons, List.sum_cons, List.count_cons, beq_iff_eq, add_smul, Finset.sum_add_distrib, ite_smul,
      one_nsmul, zero_nsmul, Finset.sum_ite_eq, Finset.mem_univ, if_true]
    rw [ih, add_comm]

/-- A sum over pairs does not change if pairs are turned round, as long as the terms do not. -/
theorem sum_map_eq_of_count_swap (f : Fin n × Fin n → Vec ℝ) (hf : ∀ pair, f pair.swap = f pair)
    (list list' : List (Fin n × Fin n))
    (hcount : ∀ pair, f pair ≠ 0 → list.count pair + list.count pair.swap = list'.count pair + list'.count pair.swap) :
    (list.map f).sum = (list'.map f).sum := by
  have hdouble : ∀ l : List (Fin n × Fin n),
      (l.map f).sum + (l.map f).sum = ∑ pair : Fin n × Fin n, (l.count pair + l.count pair.swap) • f pair := by
    intro l
    have hswap : ∑ pair : Fin n × Fin n, l.count pair • f pair = ∑ pair : Fin n × Fin n, l.count pair.swap • f pair := by
      rw [← (Equiv.prodComm (Fin n) (Fin n)).sum_comp fun pair => l.count pair • f pair]
      exact Finset.sum_congr rfl fun pair _ => congrArg _ (hf pair)
    simp only [add_nsmul, Finset.sum_add_distrib]
    rw [← hswap, sum_map_eq_sum_count]
  have hsame : (list.map f).sum + (list.map f).sum = (list'.map f).sum + (list'.map f).sum := by
    rw [hdouble, hdouble]
    refine Finset.sum_congr rfl fun pair _ => ?_
    by_cases hzero : f pair = 0
    · rw [hzero, nsmul_zero, nsmul_zero]
    · rw [hcount pair hzero]
  ext
  · have := congrArg Vec.x hsame
    simp only [Vec.add_x] at this
    linarith
  · have := congrArg Vec.y hsame
    simp only [Vec.add_y] at this
    linarith

/-! ## The plain pass -/

/-- Every two nodes, the one with the smaller number first. -/
def everyPair (n : ℕ) : List (Fin n × Fin n) :=
  (List.finRange n).flatMap fun i => ((List.finRange n).filter (i < ·)).map fun j => (i, j)

/-- Pushes apart every two nodes in turn, without a tree. -/
noncomputable def plainPass : Vector (Vec ℝ) n :=
  (everyPair n).foldl (fun sum pair => separate direction radius strength positions sum pair.1 pair.2)
    (Vector.replicate n .zero)

theorem count_everyPair (i j : Fin n) : (everyPair n).count (i, j) = if i < j then 1 else 0 := by
  have hnodup : (everyPair n).Nodup := by
    refine List.nodup_flatMap.mpr ⟨fun i _ => ?_, ?_⟩
    · exact ((List.nodup_finRange n).filter _).map (Prod.mk_right_injective i)
    · refine (List.nodup_finRange n).imp fun {i i'} hne => ?_
      rw [Function.onFun, List.disjoint_left]
      intro pair hpair hpair'
      obtain ⟨_, _, rfl⟩ := List.mem_map.mp hpair
      obtain ⟨_, _, he⟩ := List.mem_map.mp hpair'
      exact hne (congrArg Prod.fst he).symm
  have hmem : (i, j) ∈ everyPair n ↔ i < j := by
    simp [everyPair]
  split
  · next h => exact List.count_eq_one_of_mem hnodup (hmem.mpr h)
  · next h => exact List.count_eq_zero.mpr fun hpair => h (hmem.mp hpair)

/-- Both passes take two different nodes equally often, unless these are out of reach. -/
theorem count_pairs_eq_count_everyPair {positions : Vector (Vec ℝ) n} {tree : QuadTree ℝ n}
    (h : QuadTree.build positions = some tree) (reachSq : ℝ) (i j : Fin n) (hnear : Near positions reachSq i j) :
    (pairs reachSq tree).count (i, j) + (pairs reachSq tree).count (j, i) =
      (everyPair n).count (i, j) + (everyPair n).count (j, i) := by
  rw [(count_pairs_build h reachSq i j).2 hnear, count_everyPair, count_everyPair]
  rcases lt_trichotomy i j with hlt | heq | hgt
  · simp [hlt, hlt.ne, hlt.not_gt]
  · simp [heq]
  · simp [hgt, hgt.ne', hgt.not_gt]

theorem everyPair_ne : ∀ pair ∈ everyPair n, pair.1 ≠ pair.2 := by
  rintro ⟨i, j⟩ hpair (rfl : i = j)
  exact List.count_eq_zero.mp ((count_everyPair i i).trans (if_neg (lt_irrefl i))) hpair

/-- Both passes add the same to the impulse of a node: only pairs within reach add anything. -/
theorem sum_added_pairs (hdirection : ∀ i j, i ≠ j → direction j i = -direction i j) {tree : QuadTree ℝ n}
    (h : QuadTree.build positions = some tree) (k : Fin n) :
    ((pairs (reachSq radius) tree).map (added direction radius strength positions k)).sum =
      ((everyPair n).map (added direction radius strength positions k)).sum := by
  refine sum_map_eq_of_count_swap _ (added_swap direction radius strength positions hdirection k) _ _ ?_
  rintro ⟨i, j⟩ hadded
  refine count_pairs_eq_count_everyPair h (reachSq radius) i j (le_of_not_ge fun hfar => hadded ?_)
  exact added_eq_zero_of_far direction radius strength positions k (i, j) hfar

/-- The impulses found through the tree are those of the plain pass over all pairs. Two different nodes are looked at
once, in one order or the other, or else they are out of reach and are not looked at. -/
theorem impulses_eq_plainPass (hradius : 0 < radius) (hdirection : ∀ i j, i ≠ j → direction j i = -direction i j) :
    (QuadTree.build positions = none ↔ n = 0) ∧
    ∀ tree, QuadTree.build positions = some tree →
      impulses direction radius strength positions tree = plainPass direction radius strength positions ∧
      (∀ i, (pairs (reachSq radius) tree).count (i, i) = 0) ∧
      ∀ i j, i ≠ j →
        (pairs (reachSq radius) tree).count (i, j) + (pairs (reachSq radius) tree).count (j, i) = 1 ∨
        (pairs (reachSq radius) tree).count (i, j) + (pairs (reachSq radius) tree).count (j, i) = 0 ∧
          (2 * radius) ^ 2 < (positions.get i - positions.get j).lengthSq := by
  refine ⟨QuadTree.build_eq_none_iff positions, fun tree htree => ⟨?_, count_pairs_self htree _, fun i j hij => ?_⟩⟩
  · have hne : ∀ pair ∈ pairs (reachSq radius) tree, pair.1 ≠ pair.2 := by
      rintro ⟨i, j⟩ hpair (rfl : i = j)
      exact List.count_eq_zero.mp (count_pairs_self htree _ i) hpair
    apply Vector.ext
    intro k hk
    refine (foldl_separate_get direction radius strength positions hradius _ hne _ ⟨k, hk⟩).trans ?_
    rw [sum_added_pairs direction radius strength positions hdirection htree]
    exact (foldl_separate_get direction radius strength positions hradius _ everyPair_ne _ ⟨k, hk⟩).symm
  · have hreach : (2 * radius) ^ 2 = reachSq radius := by
      rw [← reachSq_eq]
      ring
    rw [hreach]
    exact count_pairs_once_or_far htree (reachSq radius) i j hij

theorem fallbackDirection_swap (i j : ℕ) (hij : i ≠ j) :
    (fallbackDirection j i : Vec ℝ) = -fallbackDirection i j := by
  simp only [fallbackDirection, min_comm j i, max_comm j i]
  by_cases hle : i ≤ j
  · rw [if_pos hle, if_neg fun h => hij (le_antisymm hle h)]
  · rw [if_neg hle, if_pos (le_of_not_ge hle), neg_neg]

/-- Forty points on a parabola. -/
noncomputable def parabola : Vector (Vec ℝ) 40 := Vector.ofFn fun i => ⟨7 * (i.val : ℝ), (i.val : ℝ) * (i.val : ℝ)⟩

theorem parabola_impulses :
    0 < (30 : ℝ) ∧ (∀ i j, i ≠ j → (fallbackDirection j i : Vec ℝ) = -fallbackDirection i j) ∧
    ∃ tree, QuadTree.build parabola = some tree ∧
      impulses fallbackDirection 30 1 parabola tree = plainPass fallbackDirection 30 1 parabola ∧
      (pairs (reachSq 30) tree).count (0, 1) + (pairs (reachSq 30) tree).count (1, 0) = 1 := by
  have hradius : 0 < (30 : ℝ) := by norm_num
  obtain ⟨hnone, hsome⟩ := impulses_eq_plainPass fallbackDirection 30 1 parabola hradius fallbackDirection_swap
  obtain ⟨tree, htree⟩ := Option.ne_none_iff_exists'.mp fun h => absurd (hnone.mp h) (by norm_num)
  obtain ⟨himpulses, _, hpairs⟩ := hsome tree htree
  refine ⟨hradius, fallbackDirection_swap, tree, htree, himpulses, ?_⟩
  rcases hpairs 0 1 (by decide) with h | ⟨_, hfar⟩
  · exact h
  · refine absurd hfar ?_
    simp [parabola, Vec.lengthSq]
    norm_num

end CallAtlas.Collision
