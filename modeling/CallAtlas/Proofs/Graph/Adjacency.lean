import CallAtlas.Proofs.Graph.Identity

/-! The links of a graph against its payload, and the two passes over them, degrees and adjacency, against the links
and against each other.

Links are strictly increasing, so a graph depends on the links of its payload as a set only. Both passes are one pass
`alongLinks`: the entry of a node is folded from the other ends of the proper links at it. -/

namespace CallAtlas

set_option autoImplicit false

namespace Link

variable {n : Nat}

/-! ## The order of links -/

/-- Strictly smaller by source, then by target. -/
def Precedes (a b : Link n) : Prop := a.source < b.source ∨ a.source = b.source ∧ a.target < b.target

instance : Std.Irrefl (Precedes (n := n)) := ⟨fun a h => by
  rcases h with h | ⟨_, h⟩ <;> exact lt_irrefl _ h⟩

instance : Std.Antisymm (Precedes (n := n)) := ⟨fun a b hab hba => by
  unfold Precedes at hab hba
  omega⟩

theorem before_iff (a b : Link n) :
    a.before b = true ↔ a.source < b.source ∨ a.source = b.source ∧ a.target ≤ b.target := by
  simp [before]

theorem before_trans (a b c : Link n) (hab : a.before b = true) (hbc : b.before c = true) : a.before c = true := by
  rw [before_iff] at hab hbc ⊢
  omega

theorem before_total (a b : Link n) : (a.before b || b.before a) = true := by
  rw [Bool.or_eq_true, before_iff, before_iff]
  omega

theorem precedes_of_before (a b : Link n) (hne : a ≠ b) (h : a.before b = true) : a.Precedes b := by
  rw [before_iff] at h
  rcases h with h | ⟨hs, ht⟩
  · exact Or.inl h
  · refine Or.inr ⟨hs, lt_of_le_of_ne ht fun he => hne ?_⟩
    cases a
    cases b
    exact congrArg₂ Link.mk hs he

theorem precedes_trans (a b c : Link n) (hab : a.Precedes b) (hbc : b.before c = true) : a.Precedes c := by
  rw [before_iff] at hbc
  unfold Precedes at hab ⊢
  omega

end Link

namespace CallGraph

open Link

/-! ## Links without repeats -/

section

variable {τ : Type} [DecidableEq τ]

theorem mem_dropRepeats (item : τ) (items : List τ) : item ∈ dropRepeats items ↔ item ∈ items := by
  fun_induction dropRepeats items with
  | case1 => rfl
  | case2 => rfl
  | case3 a rest ih => rw [ih]; simp
  | case4 a b rest hab ih => rw [List.mem_cons, ih, ← List.mem_cons]

/-- Sorted items without repeats are strictly increasing. -/
theorem dropRepeats_pairwise {le lt : τ → τ → Prop} (hstrict : ∀ a b, a ≠ b → le a b → lt a b)
    (htrans : ∀ a b c, lt a b → le b c → lt a c) {items : List τ} (h : items.Pairwise le) :
    (dropRepeats items).Pairwise lt := by
  fun_induction dropRepeats items with
  | case1 => exact List.Pairwise.nil
  | case2 a => exact List.pairwise_singleton _ _
  | case3 a rest ih => exact ih h.tail
  | case4 a b rest hab ih =>
    rw [List.pairwise_cons]
    refine ⟨fun c hc => ?_, ih h.tail⟩
    -- `a` is before `b` and differs from it, and `b` is before all that is left.
    have hlt : lt a b := hstrict a b hab (List.rel_of_pairwise_cons h List.mem_cons_self)
    rcases List.mem_cons.mp ((mem_dropRepeats c _).mp hc) with rfl | hrest
    · exact hlt
    · exact htrans a b c hlt (List.rel_of_pairwise_cons h.tail hrest)

end

theorem mem_resolveLinks {n : Nat} (numbers : Table (Fin n)) (specs : List LinkSpec) (i j : Fin n) :
    ⟨i, j⟩ ∈ resolveLinks numbers specs ↔
      ∃ spec ∈ specs, numbers.lookup spec.source = some i ∧ numbers.lookup spec.target = some j := by
  rw [resolveLinks, List.mem_filterMap]
  refine exists_congr fun spec => and_congr_right fun _ => ?_
  split
  · next source target hs ht => simp [hs, ht]
  · next h =>
    constructor
    · intro hnone
      exact absurd hnone (by simp)
    · rintro ⟨hs, ht⟩
      exact absurd ht (h i j hs)

theorem ofSpec_links (graph : GraphSpec) :
    (ofSpec graph).links = dropRepeats ((resolveLinks (ofSpec graph).indexById graph.links).mergeSort before) := rfl

theorem ofSpec_links_pairwise (graph : GraphSpec) : (ofSpec graph).links.Pairwise Precedes := by
  rw [ofSpec_links]
  exact dropRepeats_pairwise precedes_of_before precedes_trans (List.pairwise_mergeSort before_trans before_total _)

theorem mem_ofSpec_links (graph : GraphSpec) (i j : Fin (ofSpec graph).size) :
    ⟨i, j⟩ ∈ (ofSpec graph).links ↔
      ∃ spec ∈ graph.links, spec.source = ((ofSpec graph).vertices.get i).id ∧
        spec.target = ((ofSpec graph).vertices.get j).id := by
  rw [ofSpec_links, mem_dropRepeats, List.mem_mergeSort, mem_resolveLinks]
  refine exists_congr fun spec => and_congr_right fun _ => and_congr ?_ ?_
  · exact (ofSpec_indexOf graph spec.source i).trans eq_comm
  · exact (ofSpec_indexOf graph spec.target j).trans eq_comm

/-- Order and repeats of the links of a payload do not show in its graph. -/
theorem ofSpec_congr_links (nodes : List NodeSpec) (links links' : List LinkSpec) (h : ∀ l, l ∈ links ↔ l ∈ links') :
    ofSpec ⟨nodes, links⟩ = ofSpec ⟨nodes, links'⟩ := by
  have hlinks : (ofSpec ⟨nodes, links⟩).links = (ofSpec ⟨nodes, links'⟩).links := by
    apply (ofSpec_links_pairwise ⟨nodes, links⟩).eq_of_mem_iff (ofSpec_links_pairwise ⟨nodes, links'⟩)
    rintro ⟨i, j⟩
    rw [mem_ofSpec_links ⟨nodes, links⟩]
    refine Iff.trans ?_ (mem_ofSpec_links ⟨nodes, links'⟩ i j).symm
    exact exists_congr fun spec => and_congr_left fun _ => h spec
  exact congrArg (CallGraph.mk _ (ofSpec ⟨nodes, links⟩).vertices · _ _) hlinks

end CallGraph

/-! ## One pass over the links -/

namespace Link

variable {n : Nat}

/-- The end of a link across from a node, if the node is an end of it. -/
def otherEnd (i : Fin n) (l : Link n) : Option (Fin n) :=
  if l.source = i then some l.target else if l.target = i then some l.source else none

theorem changeEnds_get {τ : Type} (f : Fin n → τ → τ) (entries : Vector τ n) (l : Link n) (hl : l.isLoop = false)
    (i : Fin n) :
    (changeEnds f entries l).get i = (l.otherEnd i).toList.foldl (fun entry j => f j entry) (entries.get i) := by
  have hne : l.source ≠ l.target := by simpa [isLoop] using hl
  have hne' : (l.source : ℕ) ≠ l.target := Fin.val_ne_of_ne hne
  unfold changeEnds otherEnd
  simp only [Vector.get_eq_getElem]
  by_cases hs : l.source = i
  · rw [if_pos hs, ← hs, Vector.getElem_set_ne _ _ hne'.symm, Vector.getElem_set_self]
    rfl
  · rw [if_neg hs]
    by_cases ht : l.target = i
    · rw [if_pos ht, ← ht, Vector.getElem_set_self, Vector.getElem_set_ne _ _ hne']
      rfl
    · rw [if_neg ht, Vector.getElem_set_ne _ _ (Fin.val_ne_of_ne ht), Vector.getElem_set_ne _ _ (Fin.val_ne_of_ne hs)]
      rfl

theorem foldl_changeEnds_get {τ : Type} (f : Fin n → τ → τ) (links : List (Link n))
    (hlinks : ∀ l ∈ links, l.isLoop = false) (entries : Vector τ n) (i : Fin n) :
    (links.foldl (changeEnds f) entries).get i =
      (links.filterMap (otherEnd i)).foldl (fun entry j => f j entry) (entries.get i) := by
  induction links generalizing entries with
  | nil => rfl
  | cons l rest ih =>
    rw [List.foldl_cons, ih (fun l' hl' => hlinks l' (List.mem_cons_of_mem l hl')),
      changeEnds_get f entries l (hlinks l List.mem_cons_self) i, List.filterMap_cons]
    cases l.otherEnd i <;> rfl

/-- Across from `i` along a proper link lies `j` exactly if the link joins the two. -/
theorem otherEnd_eq_some_iff (l : Link n) (hl : l.isLoop = false) (i j : Fin n) :
    l.otherEnd i = some j ↔ l = ⟨i, j⟩ ∨ l = ⟨j, i⟩ := by
  obtain ⟨s, t⟩ := l
  have hne : s ≠ t := by simpa [isLoop] using hl
  simp only [otherEnd, Link.mk.injEq]
  by_cases hs : s = i
  · subst hs
    simp [hne.symm]
  · by_cases ht : t = i
    · subst ht
      simp [hs]
    · simp [hs, ht]

theorem otherEnd_isSome (l : Link n) (i : Fin n) : (l.otherEnd i).isSome = true ↔ l.source = i ∨ l.target = i := by
  unfold otherEnd
  by_cases hs : l.source = i
  · simp [hs]
  · by_cases ht : l.target = i <;> simp [hs, ht]

end Link

namespace CallGraph

open Link

theorem properLinks_not_loop (g : CallGraph) : ∀ l ∈ g.properLinks, l.isLoop = false := by
  intro l hl
  simpa using (List.mem_filter.mp hl).2

/-- The pass folds the entry of a node from the other ends of the proper links at it. -/
theorem alongLinks_get {τ : Type} (g : CallGraph) (start : τ) (f : Fin g.size → τ → τ) (i : Fin g.size) :
    (g.alongLinks start f).get i =
      (g.properLinks.filterMap (otherEnd i)).foldl (fun entry j => f j entry) start := by
  rw [alongLinks, foldl_changeEnds_get f g.properLinks g.properLinks_not_loop, Vector.get_replicate]

theorem neighbours_eq_filterMap (g : CallGraph) (i : Fin g.size) :
    g.neighbours i = g.properLinks.filterMap (otherEnd i) := by
  have happend : ∀ found nodes : List (Fin g.size),
      nodes.foldl (fun found j => found ++ [j]) found = found ++ nodes := by
    intro found nodes
    induction nodes generalizing found with
    | nil => exact (List.append_nil found).symm
    | cons j rest ih => rw [List.foldl_cons, ih, List.append_assoc, List.singleton_append]
  rw [neighbours, adjacency, alongLinks_get, happend, List.nil_append]

/-! ## Degrees -/

theorem degree_eq_length_neighbours (g : CallGraph) (i : Fin g.size) : g.degree i = (g.neighbours i).length := by
  rw [neighbours_eq_filterMap, degree, degrees, alongLinks_get, List.foldl_const, Nat.succ_iterate]
  exact Nat.zero_add _

theorem degree_eq_countP (g : CallGraph) (i : Fin g.size) :
    g.degree i = g.properLinks.countP fun l => l.source = i ∨ l.target = i := by
  rw [degree_eq_length_neighbours, neighbours_eq_filterMap, List.length_filterMap_eq_countP]
  refine List.countP_congr fun l _ => ?_
  rw [otherEnd_isSome, decide_eq_true_iff]

theorem countP_properLinks (g : CallGraph) (p : Link g.size → Prop) [DecidablePred p] :
    g.properLinks.countP p = g.links.countP fun l => l.source ≠ l.target ∧ p l := by
  rw [properLinks, List.countP_filter]
  refine List.countP_congr fun l _ => ?_
  simp [isLoop, and_comm]

theorem sum_ends {n : Nat} (l : Link n) (hl : l.isLoop = false) :
    ∑ i : Fin n, (if l.source = i ∨ l.target = i then 1 else 0) = 2 := by
  have hne : l.source ≠ l.target := by simpa [isLoop] using hl
  have hends : (Finset.univ.filter fun i => l.source = i ∨ l.target = i) = {l.source, l.target} := by
    ext i
    simp [eq_comm]
  rw [Finset.sum_boole, hends, Finset.card_pair hne]
  rfl

/-- Every proper link has two ends. -/
theorem sum_countP_ends {n : Nat} (links : List (Link n)) (hlinks : ∀ l ∈ links, l.isLoop = false) :
    ∑ i : Fin n, (links.countP fun l => l.source = i ∨ l.target = i) = 2 * links.length := by
  induction links with
  | nil => simp
  | cons l rest ih =>
    simp only [List.countP_cons, decide_eq_true_eq]
    rw [Finset.sum_add_distrib, ih fun l' hl' => hlinks l' (List.mem_cons_of_mem l hl'),
      sum_ends l (hlinks l List.mem_cons_self), List.length_cons]
    rfl

theorem sum_degree (g : CallGraph) : ∑ i : Fin g.size, g.degree i = 2 * g.properLinks.length := by
  simp only [degree_eq_countP]
  exact sum_countP_ends g.properLinks g.properLinks_not_loop

/-! ## Adjacency -/

theorem count_neighbours (g : CallGraph) (i j : Fin g.size) :
    (g.neighbours i).count j = g.properLinks.countP fun l => l = ⟨i, j⟩ ∨ l = ⟨j, i⟩ := by
  rw [neighbours_eq_filterMap, List.count_filterMap]
  refine List.countP_congr fun l hl => ?_
  rw [beq_iff_eq, decide_eq_true_iff, otherEnd_eq_some_iff l (g.properLinks_not_loop l hl)]

theorem count_neighbours_comm (g : CallGraph) (i j : Fin g.size) :
    (g.neighbours i).count j = (g.neighbours j).count i := by
  rw [count_neighbours, count_neighbours]
  exact List.countP_congr fun l _ => by simp [or_comm]

theorem count_neighbours_self (g : CallGraph) (i : Fin g.size) : (g.neighbours i).count i = 0 := by
  rw [count_neighbours, List.countP_eq_zero]
  intro l hl hloop
  have hself : l = ⟨i, i⟩ := by simpa using hloop
  have := g.properLinks_not_loop l hl
  simp [hself, isLoop] at this

theorem count_neighbours_of_ne (g : CallGraph) (i j : Fin g.size) (h : i ≠ j) :
    (g.neighbours i).count j = g.links.countP fun l => l = ⟨i, j⟩ ∨ l = ⟨j, i⟩ := by
  rw [count_neighbours, countP_properLinks]
  refine List.countP_congr fun l _ => ?_
  rw [decide_eq_true_iff, decide_eq_true_iff, and_iff_right_iff_imp]
  rintro (rfl | rfl)
  · exact h
  · exact h.symm

/-- Links, degrees and adjacency of a graph agree with its payload and with each other. -/
theorem ofSpec_links_degrees_neighbours (graph : GraphSpec) :
    (ofSpec graph).links.Pairwise Precedes ∧
    (∀ i j : Fin (ofSpec graph).size,
      ⟨i, j⟩ ∈ (ofSpec graph).links ↔
        ∃ spec ∈ graph.links, spec.source = ((ofSpec graph).vertices.get i).id ∧
          spec.target = ((ofSpec graph).vertices.get j).id) ∧
    (∀ links : List LinkSpec, (∀ l, l ∈ links ↔ l ∈ graph.links) → ofSpec ⟨graph.nodes, links⟩ = ofSpec graph) ∧
    (∀ i : Fin (ofSpec graph).size,
      (ofSpec graph).degree i =
          (ofSpec graph).links.countP (fun l => l.source ≠ l.target ∧ (l.source = i ∨ l.target = i)) ∧
        (ofSpec graph).degree i = ((ofSpec graph).neighbours i).length) ∧
    (∀ i j : Fin (ofSpec graph).size,
      ((ofSpec graph).neighbours i).count j = ((ofSpec graph).neighbours j).count i ∧
        ((ofSpec graph).neighbours i).count j =
          if i = j then 0 else (ofSpec graph).links.countP fun l => l = ⟨i, j⟩ ∨ l = ⟨j, i⟩) ∧
    ∑ i : Fin (ofSpec graph).size, (ofSpec graph).degree i =
      2 * (ofSpec graph).links.countP fun l => l.source ≠ l.target := by
  refine ⟨ofSpec_links_pairwise graph, mem_ofSpec_links graph, fun links h => ?_, fun i => ⟨?_, ?_⟩,
    fun i j => ⟨count_neighbours_comm _ i j, ?_⟩, ?_⟩
  · exact ofSpec_congr_links graph.nodes links graph.links h
  · rw [degree_eq_countP, countP_properLinks]
  · exact degree_eq_length_neighbours _ i
  · split
    · next h => rw [h, count_neighbours_self]
    · next h => exact count_neighbours_of_ne _ i j h
  · rw [sum_degree, properLinks, ← List.countP_eq_length_filter]
    congr 1
    exact List.countP_congr fun l _ => by simp [isLoop]

theorem repeated_links_same_graph :
    (∀ l : LinkSpec, l ∈ [⟨"b", "a"⟩, ⟨"a", "b"⟩, ⟨"b", "a"⟩] ↔ l ∈ [⟨"a", "b"⟩, ⟨"b", "a"⟩]) ∧
    ofSpec ⟨[.ofId "a", .ofId "b"], [⟨"b", "a"⟩, ⟨"a", "b"⟩, ⟨"b", "a"⟩]⟩ =
      ofSpec ⟨[.ofId "a", .ofId "b"], [⟨"a", "b"⟩, ⟨"b", "a"⟩]⟩ := by
  have hsame : ∀ l : LinkSpec, l ∈ [⟨"b", "a"⟩, ⟨"a", "b"⟩, ⟨"b", "a"⟩] ↔ l ∈ [⟨"a", "b"⟩, ⟨"b", "a"⟩] := by
    intro l
    simp only [List.mem_cons, List.not_mem_nil, or_false]
    tauto
  obtain ⟨_, _, hcongr, _⟩ := ofSpec_links_degrees_neighbours ⟨[.ofId "a", .ofId "b"], [⟨"a", "b"⟩, ⟨"b", "a"⟩]⟩
  exact ⟨hsame, hcongr _ hsame⟩

end CallGraph

end CallAtlas
