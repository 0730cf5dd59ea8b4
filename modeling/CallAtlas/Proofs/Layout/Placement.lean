import Mathlib
import CallAtlas.Layout.Tree
import CallAtlas.Proofs.Layout.Walk
import CallAtlas.Proofs.Number.Exact

/-! Layered drawings without rounding.

A node without children takes the number of such nodes that the walk has passed, its slot (`Spans.slot_leaf`). Every
other node sits between its outer children, so its slot stays among those of the nodes below it (`Spans.over_below`).
What lies below a node is one piece of the walk, so nodes of which neither lies below the other are at least a slot
apart (`Spans.slot_add_one_le`). -/

namespace CallAtlas

set_option autoImplicit false

namespace Forest

variable {n : ℕ} {visits : List (Visit n)}

/-! ## Slots while they are given out -/

/-- The number of nodes without children. -/
def leafCount (visits : List (Visit n)) (nodes : List (Fin n)) : ℕ := nodes.countP fun i => (children visits i).isEmpty

theorem leafCount_append (nodes more : List (Fin n)) :
    leafCount visits (nodes ++ more) = leafCount visits nodes + leafCount visits more :=
  List.countP_append

theorem leafCount_cons (i : Fin n) (nodes : List (Fin n)) :
    leafCount visits (i :: nodes) = leafCount visits nodes + if (children visits i).isEmpty then 1 else 0 :=
  List.countP_cons

theorem foldl_keeps {σ ι τ : Type} {step : σ → ι → σ} (read : σ → τ) {list : List ι}
    (h : ∀ i ∈ list, ∀ s, read (step s i) = read s) (s : σ) : read (list.foldl step s) = read s := by
  induction list generalizing s with
  | nil => rfl
  | cons first rest ih =>
    rw [List.forall_mem_cons] at h
    rw [List.foldl_cons, ih h.2, h.1]

theorem foldl_give_next (nodes : List (Fin n)) (s : Slots ℝ n) :
    (nodes.foldl (Slots.give visits) s).next = s.next + leafCount visits nodes := by
  induction nodes generalizing s with
  | nil => simp [leafCount]
  | cons first rest ih =>
    rw [List.foldl_cons, ih, leafCount_cons, Slots.give]
    split
    · push_cast
      norm_num
      ring
    · simp

/-- A leaf takes the number of the leaves before it. -/
theorem foldl_give_leaf {before after : List (Fin n)} {i : Fin n} (s : Slots ℝ n) (hleaf : children visits i = [])
    (hafter : i ∉ after) :
    ((before ++ i :: after).foldl (Slots.give visits) s).slots.get i = s.next + leafCount visits before := by
  have hkeeps (s : Slots ℝ n) : (after.foldl (Slots.give visits) s).slots.get i = s.slots.get i := by
    refine foldl_keeps (fun s : Slots ℝ n => s.slots.get i) (fun j hj s => ?_) s
    rw [Slots.give]
    split
    · exact Vector.getElem_set_ne j.isLt i.isLt (Fin.val_ne_of_ne fun hij => hafter (hij ▸ hj))
    · rfl
  rw [List.foldl_append, List.foldl_cons, hkeeps, Slots.give, hleaf, List.isEmpty_nil, if_pos rfl,
    Vector.get_eq_getElem, Vector.getElem_set_self, foldl_give_next]

theorem centerOver_of_ne (slots : Vector ℝ n) {i j : Fin n} (h : i ≠ j) :
    (centerOver visits slots i).get j = slots.get j := by
  rw [centerOver]
  split
  · exact Vector.getElem_set_ne i.isLt j.isLt (Fin.val_ne_of_ne h)
  · rfl

theorem foldl_centerOver_of_not_mem {nodes : List (Fin n)} (slots : Vector ℝ n) {i : Fin n} (h : i ∉ nodes) :
    (nodes.foldl (centerOver visits) slots).get i = slots.get i := by
  refine foldl_keeps (fun slots : Vector ℝ n => slots.get i) (fun j hj slots => ?_) slots
  exact centerOver_of_ne slots fun hij => h (hij ▸ hj)

theorem foldl_centerOver_leaf (nodes : List (Fin n)) (slots : Vector ℝ n) {i : Fin n} (hleaf : children visits i = []) :
    (nodes.foldl (centerOver visits) slots).get i = slots.get i := by
  refine foldl_keeps (fun slots : Vector ℝ n => slots.get i) (fun j _ slots => ?_) slots
  by_cases hj : j = i
  · rw [centerOver, hj, hleaf]
    rfl
  · exact centerOver_of_ne slots hj

/-- A node is put over the middle of its outer children, which have their places by then and keep them. -/
theorem foldl_centerOver_parent {before after : List (Fin n)} (slots : Vector ℝ n) {i first last : Fin n}
    (hfirst : (children visits i).head? = some first) (hlast : (children visits i).getLast? = some last)
    (hnodup : (before ++ i :: after).Nodup) (hbefore : ∀ c ∈ children visits i, c ∈ before) :
    let placed := (before ++ i :: after).foldl (centerOver visits) slots
    placed.get i = (placed.get first + placed.get last) / 2 := by
  intro placed
  have hkeeps : ∀ c ∈ children visits i, placed.get c = (before.foldl (centerOver visits) slots).get c := by
    intro c hc
    have hlater : c ∉ i :: after := List.disjoint_of_nodup_append hnodup (hbefore c hc)
    simp only [placed]
    rw [List.foldl_append, foldl_centerOver_of_not_mem _ hlater]
  have hafter : i ∉ after := (List.nodup_cons.mp hnodup.of_append_right).1
  rw [hkeeps first (List.mem_of_head? hfirst), hkeeps last (List.mem_of_getLast? hlast)]
  simp only [placed]
  rw [List.foldl_append, List.foldl_cons, foldl_centerOver_of_not_mem _ hafter, centerOver, hfirst, hlast]
  simp only [Vector.get_eq_getElem, Vector.getElem_set_self]
  norm_num
  ring

/-! ## Slots of all nodes -/

/-- The slot of a node, without rounding. -/
noncomputable def slot (visits : List (Visit n)) (i : Fin n) : ℝ := (assignSlots visits : Slots ℝ n).slots.get i

theorem assignSlots_next : (assignSlots visits : Slots ℝ n).next = leafCount visits (preorder visits) := by
  rw [assignSlots]
  simp only
  rw [foldl_give_next]
  simp

namespace Spans

variable (h : Spans visits)
include h

theorem slot_leaf {before after : List (Fin n)} {i : Fin n} (hsplit : preorder visits = before ++ i :: after)
    (hleaf : children visits i = []) : slot visits i = leafCount visits before := by
  have hnodup := h.preorder_nodup
  rw [hsplit] at hnodup
  have hafter : i ∉ after := (List.nodup_cons.mp hnodup.of_append_right).1
  rw [slot, assignSlots]
  simp only
  rw [foldl_centerOver_leaf _ _ hleaf, hsplit, foldl_give_leaf _ hleaf hafter]
  simp

theorem slot_parent {i first last : Fin n} (hfirst : (children visits i).head? = some first)
    (hlast : (children visits i).getLast? = some last) :
    slot visits i = (slot visits first + slot visits last) / 2 := by
  obtain ⟨before, after, hsegment⟩ := h.exists_segment i
  have hsplit : (preorder visits).reverse =
      (((children visits i).flatMap (below visits)) ++ after).reverse ++ i :: before.reverse := by
    rw [hsegment, h.below_eq i]
    simp
  have hnodup := List.nodup_reverse.mpr h.preorder_nodup
  rw [hsplit] at hnodup
  unfold slot assignSlots
  simp only
  rw [hsplit]
  refine foldl_centerOver_parent _ hfirst hlast hnodup fun c hc => ?_
  have hbelow : c ∈ (children visits i).flatMap (below visits) :=
    List.mem_flatMap.mpr ⟨c, hc, h.mem_below_iff.mpr .refl⟩
  exact List.mem_reverse.mpr (List.mem_append_left _ hbelow)

end Spans

/-! ## Nodes over the leaves below them -/

/-- The slot of a node is that of a leaf in a piece of the walk, or between those of two. -/
def Over (visits : List (Visit n)) (before piece : List (Fin n)) (i : Fin n) : Prop :=
  (leafCount visits before : ℝ) ≤ slot visits i ∧ slot visits i + 1 ≤ leafCount visits (before ++ piece)

theorem Over.widen {before front piece back : List (Fin n)} {i : Fin n} (h : Over visits (before ++ front) piece i) :
    Over visits before (front ++ piece ++ back) i := by
  obtain ⟨hlow, hhigh⟩ := h
  simp only [leafCount_append, Nat.cast_add] at hlow hhigh
  have hfront : (0 : ℝ) ≤ leafCount visits front := Nat.cast_nonneg _
  have hback : (0 : ℝ) ≤ leafCount visits back := Nat.cast_nonneg _
  simp only [Over, leafCount_append, Nat.cast_add]
  constructor <;> linarith

namespace Spans

variable (h : Spans visits)
include h

/-- The slot of a leaf is the number of leaves before it, and the middle between two children is over the leaves below
their parent because both children are. -/
theorem over_below {before after : List (Fin n)} {i : Fin n}
    (hsegment : preorder visits = before ++ below visits i ++ after) : Over visits before (below visits i) i := by
  -- By the length of the piece: those of the children are shorter.
  induction hlength : (below visits i).length using Nat.strong_induction_on generalizing i before after with
  | _ length ih =>
    cases hchildren : children visits i with
    | nil =>
      have hbelow : below visits i = [i] := by rw [h.below_eq i, hchildren, List.flatMap_nil]
      rw [hbelow, List.append_assoc] at hsegment
      rw [Over, h.slot_leaf hsegment hchildren, hbelow, leafCount_append, leafCount_cons, hchildren]
      simp [leafCount]
    | cons first rest =>
      have hover : ∀ c ∈ children visits i, Over visits before (below visits i) c := by
        intro c hc
        obtain ⟨front, back, hchild⟩ := h.below_child hc
        have hsegment' : preorder visits = (before ++ i :: front) ++ below visits c ++ (back ++ after) := by
          rw [hsegment, hchild]
          simp only [List.append_assoc]
        have hshorter : (below visits c).length < length := by
          rw [← hlength, hchild]
          simp only [List.length_append, List.length_cons]
          omega
        rw [hchild]
        exact (ih _ hshorter hsegment' rfl).widen
      have hfirst : (children visits i).head? = some first := by rw [hchildren, List.head?_cons]
      obtain ⟨last, hlast⟩ : ∃ last, (children visits i).getLast? = some last :=
        ⟨_, by rw [hchildren, List.getLast?_eq_some_getLast (List.cons_ne_nil _ _)]⟩
      have hf := hover first (List.mem_of_head? hfirst)
      have hl := hover last (List.mem_of_getLast? hlast)
      rw [Over] at hf hl ⊢
      rw [h.slot_parent hfirst hlast]
      constructor <;> linarith

theorem over_preorder (i : Fin n) : Over visits [] (preorder visits) i := by
  obtain ⟨before, after, hsegment⟩ := h.exists_segment i
  rw [hsegment]
  exact (h.over_below hsegment).widen

/-- Where the walk comes to a node, what lies below the node follows. -/
theorem split_segment {i : Fin n} {before after front back : List (Fin n)}
    (hsegment : preorder visits = before ++ below visits i ++ after) (hsplit : preorder visits = front ++ i :: back) :
    front = before ∧ back = (children visits i).flatMap (below visits) ++ after := by
  have hnodup := h.preorder_nodup
  rw [hsplit, List.nodup_middle, List.nodup_cons, List.mem_append, not_or] at hnodup
  rw [hsplit, h.below_eq i, List.append_assoc, List.cons_append] at hsegment
  obtain ⟨hfront, -, hback⟩ := (List.append_cons_inj_of_notMem hnodup.1.1 hnodup.1.2).mp hsegment
  exact ⟨hfront, hback⟩

/-- What comes behind the piece of a node lies at least one slot to the right of the node. -/
theorem slot_add_one_le {before after : List (Fin n)} {i j : Fin n}
    (hsegment : preorder visits = before ++ below visits i ++ after) (hj : j ∈ after) :
    slot visits i + 1 ≤ slot visits j := by
  obtain ⟨front, back, rfl⟩ := List.append_of_mem hj
  obtain ⟨before', after', hsegment'⟩ := h.exists_segment j
  have hsplit : preorder visits = (before ++ below visits i ++ front) ++ j :: back := by
    rw [hsegment]
    simp only [List.append_assoc]
  have hi := (h.over_below hsegment).2
  have hright := (h.over_below hsegment').1
  rw [← (h.split_segment hsegment' hsplit).1, leafCount_append, Nat.cast_add] at hright
  have hfront : (0 : ℝ) ≤ leafCount visits front := Nat.cast_nonneg _
  linarith

theorem level_lt_of_mem_below {i j : Fin n} (hj : j ∈ below visits i) :
    j = i ∨ level visits i < level visits j := by
  have hbelow := h.mem_below_iff.mp hj
  clear hj
  induction hbelow with
  | refl => exact Or.inl rfl
  | tail _ hc ih =>
    have hlevel := h.level_child hc
    rcases ih with rfl | hlt
    · exact Or.inr (by omega)
    · exact Or.inr (by omega)

theorem slots_apart {i j : Fin n} (hne : i ≠ j) (hlevel : level visits i = level visits j) :
    slot visits i + 1 ≤ slot visits j ∨ slot visits j + 1 ≤ slot visits i := by
  have hj : j ∉ below visits i := fun hmem =>
    (h.level_lt_of_mem_below hmem).elim (fun hji => hne hji.symm) fun hlt => by omega
  have hi : i ∉ below visits j := fun hmem =>
    (h.level_lt_of_mem_below hmem).elim hne fun hlt => by omega
  obtain ⟨before, after, hsegment⟩ := h.exists_segment i
  have hmem : j ∈ preorder visits := h.preorder_perm.mem_iff.mpr (List.mem_finRange j)
  rw [hsegment, List.mem_append, List.mem_append] at hmem
  rcases hmem with (hbefore | hbelow) | hafter
  · -- The walk comes to `j` before `i`, and leaves what lies below `j` before it comes to `i`.
    obtain ⟨front, back, rfl⟩ := List.append_of_mem hbefore
    obtain ⟨before', after', hsegment'⟩ := h.exists_segment j
    have hsplit : preorder visits = front ++ j :: (back ++ below visits i ++ after) := by
      rw [hsegment]
      simp only [List.append_assoc, List.cons_append]
    have hrest : i ∈ (children visits j).flatMap (below visits) ++ after' := by
      rw [← (h.split_segment hsegment' hsplit).2, h.below_eq i]
      simp
    refine Or.inr (h.slot_add_one_le hsegment' ((List.mem_append.mp hrest).resolve_left fun hbelow => hi ?_))
    rw [h.below_eq j]
    exact List.mem_cons_of_mem j hbelow
  · exact absurd hbelow hj
  · exact Or.inl (h.slot_add_one_le hsegment hafter)

theorem below_of_mem {r i : Fin n} (hi : i ∈ below visits r) :
    ∃ front back, below visits r = front ++ below visits i ++ back := by
  have hbelow := h.mem_below_iff.mp hi
  clear hi
  induction hbelow with
  | refl => exact ⟨[], [], by rw [List.nil_append, List.append_nil]⟩
  | @tail p c _ hc ih =>
    obtain ⟨front, back, hp⟩ := ih
    obtain ⟨front', back', hchild⟩ := h.below_child hc
    refine ⟨front ++ p :: front', back' ++ back, ?_⟩
    rw [hp, hchild]
    simp only [List.append_assoc]

/-- Trees lie side by side, in the order of their roots. -/
theorem trees_apart :
    (roots visits).Pairwise fun r s =>
      ∀ i ∈ below visits r, ∀ j ∈ below visits s, slot visits i + 1 ≤ slot visits j := by
  refine List.pairwise_iff_forall_sublist.mpr fun {r s} hsublist i hi j hj => ?_
  obtain ⟨left, right, hroots, hr, hs⟩ := List.cons_sublist_iff.mp hsublist
  obtain ⟨front, back, rfl⟩ := List.append_of_mem hr
  obtain ⟨front', back', hbelow⟩ := h.below_of_mem hi
  have hsegment : preorder visits = (front.flatMap (below visits) ++ front') ++ below visits i ++
      (back' ++ back.flatMap (below visits) ++ right.flatMap (below visits)) := by
    rw [h.preorder_eq, hroots, List.flatMap_append, List.flatMap_append, List.flatMap_cons, hbelow]
    simp only [List.append_assoc]
  refine h.slot_add_one_le hsegment (List.mem_append_right _ ?_)
  exact List.mem_flatMap.mpr ⟨s, List.singleton_sublist.mp hs, hj⟩

end Spans

/-! ## The first and the last slot -/

theorem exists_leaf {nodes : List (Fin n)} {k : ℕ} (hk : k < leafCount visits nodes) :
    ∃ before i after, nodes = before ++ i :: after ∧ children visits i = [] ∧ leafCount visits before = k := by
  induction nodes generalizing k with
  | nil => exact absurd hk (Nat.not_lt_zero k)
  | cons first rest ih =>
    rw [leafCount_cons] at hk
    by_cases hleaf : children visits first = []
    · cases k with
      | zero => exact ⟨[], first, rest, rfl, hleaf, rfl⟩
      | succ k =>
        rw [hleaf, List.isEmpty_nil, if_pos rfl] at hk
        obtain ⟨before, i, after, rfl, hi, hcount⟩ := ih (Nat.lt_of_succ_lt_succ hk)
        refine ⟨first :: before, i, after, rfl, hi, ?_⟩
        rw [leafCount_cons, hleaf, hcount]
        rfl
    · have hempty : (children visits first).isEmpty = false := by simpa using hleaf
      rw [hempty, if_neg Bool.false_ne_true] at hk
      obtain ⟨before, i, after, rfl, hi, hcount⟩ := ih hk
      refine ⟨first :: before, i, after, rfl, hi, ?_⟩
      rw [leafCount_cons, hempty, hcount]
      rfl

namespace Spans

variable (h : Spans visits)
include h

theorem exists_slot {k : ℕ} (hk : k < leafCount visits (preorder visits)) : ∃ i, slot visits i = k := by
  obtain ⟨before, i, after, hsplit, hleaf, hcount⟩ := exists_leaf hk
  exact ⟨i, by rw [h.slot_leaf hsplit hleaf, hcount]⟩

theorem zero_le_slot (i : Fin n) : 0 ≤ slot visits i := by
  simpa [leafCount] using (h.over_preorder i).1

theorem slot_le (i : Fin n) : slot visits i ≤ leafCount visits (preorder visits) - 1 :=
  le_sub_iff_add_le.mpr (h.over_preorder i).2

variable (hn : 0 < n)
include hn

theorem leafCount_pos : 0 < leafCount visits (preorder visits) := by
  have hlow := h.zero_le_slot ⟨0, hn⟩
  have hhigh := h.slot_le ⟨0, hn⟩
  have hpos : (0 : ℝ) < leafCount visits (preorder visits) := by linarith
  exact_mod_cast hpos

theorem isLeast_slot : IsLeast (Set.range (slot visits)) 0 := by
  constructor
  · simpa using h.exists_slot (h.leafCount_pos hn)
  · rintro _ ⟨i, rfl⟩
    exact h.zero_le_slot i

theorem isGreatest_slot : IsGreatest (Set.range (slot visits)) (leafCount visits (preorder visits) - 1) := by
  have hpos := h.leafCount_pos hn
  constructor
  · obtain ⟨i, hi⟩ := h.exists_slot (Nat.sub_lt hpos one_pos)
    exact ⟨i, by rw [hi, Nat.cast_pred hpos]⟩
  · rintro _ ⟨i, rfl⟩
    exact h.slot_le i

end Spans

/-! ### Levels -/

def deepest (visits : List (Visit n)) : ℕ := ((visits.map (·.level)).max?).getD 0

namespace Spans

variable (h : Spans visits) (hn : 0 < n)
include h hn

theorem isLeast_level : IsLeast (Set.range fun i => (level visits i : ℝ)) 0 := by
  constructor
  · -- Whatever node there is, a start lies above it.
    induction (⟨0, hn⟩ : Fin n) using h.induction with
    | hroot r hr => exact ⟨r, Nat.cast_eq_zero.mpr (h.mem_roots_iff_level.mp hr)⟩
    | hchild _ ih _ _ => exact ih
  · rintro _ ⟨i, rfl⟩
    exact Nat.cast_nonneg _

theorem isGreatest_level : IsGreatest (Set.range fun i => (level visits i : ℝ)) (deepest visits) := by
  obtain ⟨visit, hvisit, -⟩ := h.exists_visit ⟨0, hn⟩
  obtain ⟨lowest, hlowest⟩ : ∃ lowest, (visits.map (·.level)).max? = some lowest :=
    Option.isSome_iff_exists.mp (List.isSome_max?_of_mem (List.mem_map_of_mem hvisit))
  obtain ⟨hmem, hmax⟩ := List.max?_eq_some_iff.mp hlowest
  rw [deepest, hlowest, Option.getD_some]
  constructor
  · obtain ⟨deep, hdeep, rfl⟩ := List.mem_map.mp hmem
    exact ⟨deep.node, congrArg Nat.cast (h.level_eq hdeep)⟩
  · rintro _ ⟨i, rfl⟩
    obtain ⟨visit, hvisit, rfl⟩ := h.exists_visit i
    simp only [h.level_eq hvisit]
    exact Nat.cast_le.mpr (hmax _ (List.mem_map_of_mem hvisit))

end Spans

/-! ## Places -/

/-- Places that draw a forest in rows: nodes keep their distance, parents are over the middle of their outer children,
trees stand side by side in the order of their starts, and `center` is in the middle of all. -/
structure LaidOut (visits : List (Visit n)) (center : Vec ℝ) (breadth rowHeight : ℝ) (places : Fin n → Vec ℝ) :
    Prop where
  apart (i j : Fin n) : i ≠ j → level visits i = level visits j → breadth ≤ |(places i).x - (places j).x|
  rows (i j : Fin n) : level visits i ≠ level visits j → rowHeight ≤ |(places i).y - (places j).y|
  distinct : Function.Injective places
  centered (i first last : Fin n) :
    (children visits i).head? = some first → (children visits i).getLast? = some last →
      (places i).x = ((places first).x + (places last).x) / 2
  ordered : (roots visits).Pairwise fun r s =>
    ∀ i j, Relation.ReflTransGen (fun p c => c ∈ children visits p) r i →
      Relation.ReflTransGen (fun p c => c ∈ children visits p) s j → (places i).x + breadth ≤ (places j).x
  box : ∃ box : Rect ℝ,
    IsLeast (Set.range fun i => (places i).x) box.min.x ∧ IsLeast (Set.range fun i => (places i).y) box.min.y ∧
    IsGreatest (Set.range fun i => (places i).x) box.max.x ∧ IsGreatest (Set.range fun i => (places i).y) box.max.y ∧
    box.center = center

/-- A coordinate in steps of `k`, with `c` at the middle one. -/
noncomputable def spaced (c k middle step : ℝ) : ℝ := c + (step - middle) * k

theorem spaced_add_le (c middle : ℝ) {k s t : ℝ} (hk : 0 < k) (hst : s + 1 ≤ t) :
    spaced c k middle s + k ≤ spaced c k middle t := by
  have := mul_le_mul_of_nonneg_right hst hk.le
  simp only [spaced]
  linarith

theorem le_abs_spaced_sub (c middle : ℝ) {k s t : ℝ} (hk : 0 < k) (hst : s + 1 ≤ t ∨ t + 1 ≤ s) :
    k ≤ |spaced c k middle s - spaced c k middle t| := by
  rcases hst with hst | hts
  · exact le_abs.mpr (Or.inr (by linarith [spaced_add_le c middle hk hst]))
  · exact le_abs.mpr (Or.inl (by linarith [spaced_add_le c middle hk hts]))

/-- The outermost coordinates are those of the outermost steps, and `c` is in the middle between them. -/
theorem range_spaced {ι : Type} {steps : ι → ℝ} {last : ℝ} (hleast : IsLeast (Set.range steps) 0)
    (hgreatest : IsGreatest (Set.range steps) last) (c : ℝ) {k : ℝ} (hk : 0 < k) :
    ∃ low high, IsLeast (Set.range fun i => spaced c k (last / 2) (steps i)) low ∧
      IsGreatest (Set.range fun i => spaced c k (last / 2) (steps i)) high ∧ (low + high) / 2 = c := by
  have hmono : Monotone (spaced c k (last / 2)) := fun s t hst => by
    have := mul_le_mul_of_nonneg_right hst hk.le
    simp only [spaced]
    linarith
  have hrange : (Set.range fun i => spaced c k (last / 2) (steps i)) = spaced c k (last / 2) '' Set.range steps :=
    Set.range_comp (spaced c k (last / 2)) steps
  rw [hrange]
  refine ⟨_, _, hmono.map_isLeast hleast, hmono.map_isGreatest hgreatest, ?_⟩
  simp only [spaced]
  ring

theorem injective_of_apart {places : Fin n → Vec ℝ} {breadth rowHeight : ℝ} (hbreadth : 0 < breadth)
    (hheight : 0 < rowHeight)
    (happart : ∀ i j, i ≠ j → level visits i = level visits j → breadth ≤ |(places i).x - (places j).x|)
    (hrows : ∀ i j, level visits i ≠ level visits j → rowHeight ≤ |(places i).y - (places j).y|) :
    Function.Injective places := by
  intro i j hij
  by_contra hne
  by_cases hlevel : level visits i = level visits j
  · have hx := happart i j hne hlevel
    rw [hij, sub_self, abs_zero] at hx
    linarith
  · have hy := hrows i j hlevel
    rw [hij, sub_self, abs_zero] at hy
    linarith

end Forest

namespace CallGraph

open Forest

/-- A node is placed by its slot and its level. -/
theorem get_treePositions (g : CallGraph) (root : Option (Fin g.size)) (hsize : 0 < g.size) (center : Vec ℝ)
    (breadth rowHeight : ℝ) (i : Fin g.size) :
    (g.treePositions root center breadth rowHeight).get i =
      ⟨spaced center.x breadth ((leafCount (g.forest root) (preorder (g.forest root)) - 1) / 2)
          (slot (g.forest root) i),
        spaced center.y rowHeight (deepest (g.forest root) / 2) (level (g.forest root) i)⟩ := by
  have hleaves : (1 : ℝ) ≤ leafCount (g.forest root) (preorder (g.forest root)) :=
    Nat.one_le_cast.mpr ((g.forest_spans root).leafCount_pos hsize)
  have hwidth : Scalar.larger ((assignSlots (g.forest root) : Slots ℝ g.size).next - 1.0) 0.0 =
      leafCount (g.forest root) (preorder (g.forest root)) - 1 := by
    rw [assignSlots_next, Scalar.larger_real, Scalar.zero_real, show (1.0 : ℝ) = 1 by norm_num]
    exact max_eq_left (sub_nonneg.mpr hleaves)
  simp only [treePositions, Vector.get_ofFn, hwidth, slot, deepest, spaced]
  refine Vec.ext ?_ ?_
  · simp only [Vec.add_x, Vec.sub_x, Vec.scale_x]
    norm_num
    ring
  · simp only [Vec.add_y, Vec.sub_y, Vec.scale_y]
    norm_num
    ring

/-- A layered drawing keeps all nodes apart, parents over their children, trees side by side, and everything around
the given center. -/
theorem treePositions_laidOut (g : CallGraph) (root : Option (Fin g.size)) (hsize : 0 < g.size) (center : Vec ℝ)
    {breadth rowHeight : ℝ} (hbreadth : 0 < breadth) (hheight : 0 < rowHeight) :
    LaidOut (g.forest root) center breadth rowHeight (g.treePositions root center breadth rowHeight).get := by
  have h := g.forest_spans root
  have hplace := g.get_treePositions root hsize center breadth rowHeight
  generalize (g.treePositions root center breadth rowHeight).get = places at hplace ⊢
  have happart (i j : Fin g.size) (hne : i ≠ j) (hlevel : level (g.forest root) i = level (g.forest root) j) :
      breadth ≤ |(places i).x - (places j).x| := by
    rw [hplace, hplace]
    exact le_abs_spaced_sub _ _ hbreadth (h.slots_apart hne hlevel)
  have hrows (i j : Fin g.size) (hne : level (g.forest root) i ≠ level (g.forest root) j) :
      rowHeight ≤ |(places i).y - (places j).y| := by
    rw [hplace, hplace]
    refine le_abs_spaced_sub _ _ hheight ((Nat.lt_or_gt_of_ne hne).imp ?_ ?_)
    · exact fun hlt => by exact_mod_cast hlt
    · exact fun hlt => by exact_mod_cast hlt
  refine ⟨happart, hrows, injective_of_apart hbreadth hheight happart hrows, ?_, ?_, ?_⟩
  · intro i first last hfirst hlast
    rw [hplace, hplace, hplace, h.slot_parent hfirst hlast]
    simp only [spaced]
    ring
  · refine h.trees_apart.imp fun hapart i j hi hj => ?_
    rw [hplace, hplace]
    exact spaced_add_le _ _ hbreadth (hapart i (h.mem_below_iff.mpr hi) j (h.mem_below_iff.mpr hj))
  · obtain ⟨left, right, hleft, hright, hx⟩ :=
      range_spaced (h.isLeast_slot hsize) (h.isGreatest_slot hsize) center.x hbreadth
    obtain ⟨top, bottom, htop, hbottom, hy⟩ :=
      range_spaced (h.isLeast_level hsize) (h.isGreatest_level hsize) center.y hheight
    simp only [hplace]
    refine ⟨⟨⟨left, top⟩, ⟨right, bottom⟩⟩, hleft, htop, hright, hbottom, ?_⟩
    simp only [Rect.center]
    norm_num [hx, hy]

/-- Three nodes that are all linked with each other, and two more. -/
def triangleAndPair : CallGraph where
  size := 5
  vertices := #v[⟨"a", none, []⟩, ⟨"b", none, []⟩, ⟨"c", none, []⟩, ⟨"d", none, []⟩, ⟨"e", none, []⟩]
  links := [⟨0, 1⟩, ⟨1, 2⟩, ⟨2, 0⟩, ⟨4, 3⟩]
  indexById := [("a", 0), ("b", 1), ("c", 2), ("d", 3), ("e", 4)]
  detailsById := []

theorem triangleAndPair_laidOut :
    (roots (triangleAndPair.forest (some (0 : Fin 5)))).map Fin.val = [0, 3] ∧
    (children (triangleAndPair.forest (some (0 : Fin 5))) (0 : Fin 5)).map Fin.val = [1, 2] ∧
    0 < triangleAndPair.size ∧ (0 : ℝ) < 120 ∧ (0 : ℝ) < 150 ∧
    LaidOut (triangleAndPair.forest (some (0 : Fin 5))) ⟨10, 20⟩ 120 150
      (triangleAndPair.treePositions (some (0 : Fin 5)) ⟨10, 20⟩ 120 150).get := by
  have hsize : 0 < triangleAndPair.size := by decide
  refine ⟨by decide +kernel, by decide +kernel, hsize, by norm_num, by norm_num, ?_⟩
  exact treePositions_laidOut triangleAndPair (some (0 : Fin 5)) hsize ⟨10, 20⟩ (by norm_num) (by norm_num)

end CallGraph

end CallAtlas
