import CallAtlas.Layout.Tree
import CallAtlas.Proofs.Graph.Forest

/-! The trees of a forest, and the walk through them.

A walk takes the children of a node out of the visits that wait, so it never comes back to a node (`walk_perm`). If no
node is walked twice, it goes down from each node of its stack on its own (`walk_eq_flatMap`). In a forest that spans all
nodes (`Spans`) the walk is therefore made of one piece for every tree, and each piece of a node and the pieces of its
children (`Spans.below_eq`). The trees of a graph span its nodes (`forest_spans`), and their levels are distances
(`exists_firstStart`). -/

namespace CallAtlas

set_option autoImplicit false

namespace Forest

variable {n : ℕ} {visits pending : List (Visit n)}

/-! ## Walks -/

/-- The visits that were not found from any of these nodes. -/
def outside (pending : List (Visit n)) (walked : List (Fin n)) : List (Visit n) :=
  pending.filter fun visit => walked.all (visit.parent ≠ some ·)

theorem outside_nil (pending : List (Visit n)) : outside pending [] = pending := by
  simp [outside]

theorem outside_others (pending : List (Visit n)) (i : Fin n) (walked : List (Fin n)) :
    outside (others pending i) walked = outside pending (i :: walked) := by
  simp only [outside, others, List.filter_filter, List.all_cons, Bool.and_comm]

theorem others_outside (pending : List (Visit n)) (i : Fin n) (walked : List (Fin n)) :
    others (outside pending walked) i = outside (others pending i) walked :=
  List.filter_comm _ _ _

theorem children_outside (pending : List (Visit n)) {i : Fin n} {walked : List (Fin n)} (hi : i ∉ walked) :
    children (outside pending walked) i = children pending i := by
  have hfilter : (outside pending walked).filter (·.parent = some i) = pending.filter (·.parent = some i) := by
    rw [outside, List.filter_filter]
    refine List.filter_congr fun visit _ => ?_
    by_cases hparent : visit.parent = some i
    · have hothers : ∀ j ∈ walked, i ≠ j := fun j hj hij => hi (hij ▸ hj)
      simpa [hparent] using hothers
    · simp [hparent]
  rw [children, hfilter, children]

/-- A walk ends with the nodes it started from one after the other, less what has been walked before. -/
theorem walk_append (pending : List (Visit n)) (front back : List (Fin n)) :
    walk pending (front ++ back) =
      walk pending front ++ walk (outside pending (walk pending front)) back := by
  fun_induction walk pending front with
  | case1 pending => rw [outside_nil, List.nil_append, List.nil_append]
  | case2 pending i rest ih =>
    rw [List.cons_append, walk, ← List.append_assoc, ih, outside_others, List.cons_append]

/-- Nothing is lost: a node that waits is walked, unless it was found from one that is not. -/
theorem walk_perm (pending : List (Visit n)) (stack : List (Fin n)) :
    (walk pending stack ++ (outside pending (walk pending stack)).map (·.node)).Perm
      (stack ++ pending.map (·.node)) := by
  fun_induction walk pending stack with
  | case1 pending => rw [outside_nil]
  | case2 pending i rest ih =>
    have hsplit : (children pending i ++ (others pending i).map (·.node)).Perm (pending.map (·.node)) := by
      rw [children, others, ← List.map_append]
      simpa using (List.filter_append_perm (·.parent = some i) pending).map (·.node)
    rw [outside_others] at ih
    refine (ih.trans ?_).cons i
    rw [List.append_assoc]
    exact (List.perm_append_comm_assoc _ _ _).trans (hsplit.append_left rest)

theorem walk_outside {walked stack : List (Fin n)} (h : ∀ i ∈ walk (outside pending walked) stack, i ∉ walked) :
    walk (outside pending walked) stack = walk pending stack := by
  generalize hremaining : outside pending walked = remaining at h ⊢
  fun_induction walk remaining stack generalizing pending with
  | case1 remaining => rw [walk]
  | case2 remaining i rest ih =>
    subst hremaining
    rw [List.forall_mem_cons] at h
    rw [children_outside pending h.1] at ih h ⊢
    rw [ih (others_outside pending i walked).symm h.2, walk]

/-- If no node is walked twice, each of the nodes that a walk starts from is walked down on its own. -/
theorem walk_eq_flatMap {stack : List (Fin n)} (h : (walk pending stack).Nodup) :
    walk pending stack = stack.flatMap fun i => walk pending [i] := by
  induction stack with
  | nil => rw [walk, List.flatMap_nil]
  | cons i rest ih =>
    have happend := walk_append pending [i] rest
    rw [List.singleton_append] at happend
    have hdisjoint : ∀ j ∈ walk (outside pending (walk pending [i])) rest, j ∉ walk pending [i] := by
      intro j hlater hbefore
      rw [happend] at h
      exact List.disjoint_of_nodup_append h hbefore hlater
    rw [walk_outside hdisjoint] at happend
    rw [happend] at h
    rw [happend, List.flatMap_cons, ← ih (List.Nodup.of_append_right h)]

theorem walk_singleton {i : Fin n} (h : (walk pending [i]).Nodup) :
    walk pending [i] = i :: (children pending i).flatMap fun c => walk pending [c] := by
  have hwalk : walk pending [i] = i :: walk (outside pending [i]) (children pending i) := by
    rw [walk, List.append_nil, ← outside_nil (others pending i), outside_others]
  rw [hwalk, List.nodup_cons] at h
  have hdisjoint : ∀ j ∈ walk (outside pending [i]) (children pending i), j ∉ [i] := by
    intro j hj hmem
    exact h.1 (List.mem_singleton.mp hmem ▸ hj)
  rw [walk_outside hdisjoint] at hwalk h
  rw [hwalk, walk_eq_flatMap h.2]

/-- What is walked lies below what the walk starts from. -/
theorem exists_of_mem_walk {stack : List (Fin n)} {j : Fin n} (h : j ∈ walk pending stack) :
    ∃ i ∈ stack, Relation.ReflTransGen (fun p c => c ∈ children pending p) i j := by
  fun_induction walk pending stack with
  | case1 pending => cases h
  | case2 pending i rest ih =>
    rcases List.mem_cons.mp h with rfl | hlater
    · exact ⟨_, List.mem_cons_self, .refl⟩
    · obtain ⟨k, hk, hbelow⟩ := ih hlater
      have hlift : Relation.ReflTransGen (fun p c => c ∈ children pending p) k j :=
        Relation.ReflTransGen.mono (fun p c hc => ((List.filter_sublist.filter _).map _).subset hc) _ _ hbelow
      rcases List.mem_append.mp hk with hchild | hrest
      · exact ⟨i, List.mem_cons_self, .head hchild hlift⟩
      · exact ⟨k, List.mem_cons_of_mem i hrest, hlift⟩

/-! ## Forests that span all nodes -/

/-- Every node is visited once, starts lie at level 0, and every other node one level below the one it was found from. -/
structure Spans (visits : List (Visit n)) : Prop where
  nodes : (visits.map (·.node)).Perm (List.finRange n)
  start : ∀ visit ∈ visits, visit.parent = none → visit.level = 0
  step : ∀ visit ∈ visits, ∀ p, visit.parent = some p →
    ∃ earlier ∈ visits, earlier.node = p ∧ visit.level = earlier.level + 1

theorem mem_roots_iff {i : Fin n} : i ∈ roots visits ↔ ∃ visit ∈ visits, visit.parent = none ∧ visit.node = i := by
  simp [roots, and_assoc]

theorem mem_children_iff {i c : Fin n} :
    c ∈ children visits i ↔ ∃ visit ∈ visits, visit.parent = some i ∧ visit.node = c := by
  simp [children, and_assoc]

namespace Spans

variable (h : Spans visits)
include h

theorem exists_visit (i : Fin n) : ∃ visit ∈ visits, visit.node = i :=
  List.mem_map.mp (h.nodes.mem_iff.mpr (List.mem_finRange i))

theorem eq_of_node_eq {u v : Visit n} (hu : u ∈ visits) (hv : v ∈ visits) (hnode : u.node = v.node) : u = v :=
  List.inj_on_of_nodup_map (h.nodes.nodup_iff.mpr (List.nodup_finRange n)) hu hv hnode

theorem level_eq {visit : Visit n} (hvisit : visit ∈ visits) : level visits visit.node = visit.level := by
  cases hfind : visits.find? (·.node = visit.node) with
  | none => simpa using List.find?_eq_none.mp hfind visit hvisit
  | some found =>
    have hnode : found.node = visit.node := by simpa using List.find?_some hfind
    rw [level, hfind, h.eq_of_node_eq (List.mem_of_find?_eq_some hfind) hvisit hnode]
    rfl

theorem level_child {i c : Fin n} (hc : c ∈ children visits i) : level visits c = level visits i + 1 := by
  obtain ⟨visit, hvisit, hparent, rfl⟩ := mem_children_iff.mp hc
  obtain ⟨earlier, hearlier, rfl, hlevel⟩ := h.step visit hvisit i hparent
  rw [h.level_eq hvisit, h.level_eq hearlier, hlevel]

theorem mem_roots_iff_level {r : Fin n} : r ∈ roots visits ↔ level visits r = 0 := by
  obtain ⟨visit, hvisit, rfl⟩ := h.exists_visit r
  rw [h.level_eq hvisit]
  constructor
  · intro hr
    obtain ⟨found, hfound, hparent, hnode⟩ := mem_roots_iff.mp hr
    rw [← h.eq_of_node_eq hfound hvisit hnode]
    exact h.start found hfound hparent
  · intro hlevel
    refine mem_roots_iff.mpr ⟨visit, hvisit, ?_, rfl⟩
    cases hparent : visit.parent with
    | none => rfl
    | some p =>
      obtain ⟨earlier, -, -, hstep⟩ := h.step visit hvisit p hparent
      omega

/-- What holds of the roots and passes from every node to its children holds of all nodes. -/
theorem induction {motive : Fin n → Prop} (hroot : ∀ r ∈ roots visits, motive r)
    (hchild : ∀ i, motive i → ∀ c ∈ children visits i, motive c) (i : Fin n) : motive i := by
  have hlevels : ∀ level, ∀ visit ∈ visits, visit.level = level → motive visit.node := by
    intro level
    induction level with
    | zero =>
      intro visit hvisit hlevel
      exact hroot _ (h.mem_roots_iff_level.mpr (by rw [h.level_eq hvisit, hlevel]))
    | succ level ih =>
      intro visit hvisit hlevel
      cases hparent : visit.parent with
      | none => exact hroot _ (mem_roots_iff.mpr ⟨visit, hvisit, hparent, rfl⟩)
      | some p =>
        obtain ⟨earlier, hearlier, rfl, hstep⟩ := h.step visit hvisit p hparent
        have hbefore : motive earlier.node := ih earlier hearlier (by omega)
        exact hchild _ hbefore _ (mem_children_iff.mpr ⟨visit, hvisit, hparent, rfl⟩)
  obtain ⟨visit, hvisit, rfl⟩ := h.exists_visit i
  exact hlevels _ visit hvisit rfl

/-- Every node is a root or the child of one node, and no node is twice among them. -/
theorem roots_children_perm :
    (roots visits ++ (List.finRange n).flatMap (children visits)).Perm (List.finRange n) := by
  have hnodup : (visits.map (·.node)).Nodup := h.nodes.nodup_iff.mpr (List.nodup_finRange n)
  have hparent : ∀ {u v : Visit n}, u ∈ visits → v ∈ visits → u.node = v.node → u.parent = v.parent :=
    fun hu hv hnode => congrArg Visit.parent (h.eq_of_node_eq hu hv hnode)
  refine (List.perm_ext_iff_of_nodup ?_ (List.nodup_finRange n)).mpr fun i => ?_
  · refine List.nodup_append'.mpr ⟨(List.filter_sublist.map _).nodup hnodup, List.nodup_flatMap.mpr ⟨?_, ?_⟩, ?_⟩
    · exact fun i _ => (List.filter_sublist.map _).nodup hnodup
    · refine (List.nodup_finRange n).imp fun {i j} hne => ?_
      intro c hi hj
      obtain ⟨u, hu, hui, rfl⟩ := mem_children_iff.mp hi
      obtain ⟨v, hv, hvj, hnode⟩ := mem_children_iff.mp hj
      have := hparent hu hv hnode.symm
      rw [hui, hvj] at this
      exact hne (Option.some.inj this)
    · intro c hroot hchild
      obtain ⟨u, hu, hnone, rfl⟩ := mem_roots_iff.mp hroot
      obtain ⟨i, -, hi⟩ := List.mem_flatMap.mp hchild
      obtain ⟨v, hv, hsome, hnode⟩ := mem_children_iff.mp hi
      have := hparent hu hv hnode.symm
      rw [hnone, hsome] at this
      cases this
  · refine iff_of_true ?_ (List.mem_finRange i)
    obtain ⟨visit, hvisit, rfl⟩ := h.exists_visit i
    rw [List.mem_append, List.mem_flatMap]
    cases hparent : visit.parent with
    | none => exact Or.inl (mem_roots_iff.mpr ⟨visit, hvisit, hparent, rfl⟩)
    | some p => exact Or.inr ⟨p, List.mem_finRange p, mem_children_iff.mpr ⟨visit, hvisit, hparent, rfl⟩⟩

end Spans

/-! ## Subtrees in the walk through all trees -/

/-- The visits that have been found from a node. -/
def linked (visits : List (Visit n)) : List (Visit n) := visits.filter (·.parent ≠ none)

/-- The walk through all that lies below a node, the node included. -/
def below (visits : List (Visit n)) (i : Fin n) : List (Fin n) := walk (linked visits) [i]

theorem children_linked (visits : List (Visit n)) (i : Fin n) : children (linked visits) i = children visits i := by
  rw [children, linked, List.filter_filter, children]
  congr 1
  refine List.filter_congr fun visit _ => ?_
  by_cases hparent : visit.parent = some i
  · simp [hparent]
  · simp [hparent]

theorem below_eq_of_nodup {i : Fin n} (hnodup : (below visits i).Nodup) :
    below visits i = i :: (children visits i).flatMap (below visits) := by
  rw [below, walk_singleton hnodup, children_linked]
  rfl

theorem below_child_of_nodup {i c : Fin n} (hnodup : (below visits i).Nodup) (hc : c ∈ children visits i) :
    ∃ front back, below visits i = i :: front ++ below visits c ++ back := by
  obtain ⟨front, back, hchildren⟩ := List.append_of_mem hc
  refine ⟨front.flatMap (below visits), back.flatMap (below visits), ?_⟩
  rw [below_eq_of_nodup hnodup, hchildren, List.flatMap_append, List.flatMap_cons]
  simp only [List.append_assoc, List.cons_append]

namespace Spans

variable (h : Spans visits)
include h

theorem preorder_nodup : (preorder visits).Nodup := by
  have hsplit : (roots visits ++ (linked visits).map (·.node)).Perm (visits.map (·.node)) := by
    rw [roots, linked, ← List.map_append]
    simpa using (List.filter_append_perm (·.parent = none) visits).map (·.node)
  have hall := (walk_perm (linked visits) (roots visits)).trans (hsplit.trans h.nodes)
  exact (hall.nodup_iff.mpr (List.nodup_finRange n)).of_append_left

/-- The walk through all trees goes down one tree after the other. -/
theorem preorder_eq : preorder visits = (roots visits).flatMap (below visits) :=
  walk_eq_flatMap h.preorder_nodup

theorem nodup_of_segment {before segment after : List (Fin n)}
    (hsegment : preorder visits = before ++ segment ++ after) : segment.Nodup := by
  have hall := h.preorder_nodup
  rw [hsegment] at hall
  exact hall.of_append_left.of_append_right

/-- All that lies below a node stands in one piece. -/
theorem exists_segment (i : Fin n) : ∃ before after, preorder visits = before ++ below visits i ++ after := by
  induction i using h.induction with
  | hroot r hr =>
    obtain ⟨front, back, hroots⟩ := List.append_of_mem hr
    refine ⟨front.flatMap (below visits), back.flatMap (below visits), ?_⟩
    rw [h.preorder_eq, hroots, List.flatMap_append, List.flatMap_cons, List.append_assoc]
  | hchild i ih c hc =>
    obtain ⟨before, after, hsegment⟩ := ih
    obtain ⟨front, back, hchild⟩ := below_child_of_nodup (h.nodup_of_segment hsegment) hc
    refine ⟨before ++ i :: front, back ++ after, ?_⟩
    rw [hsegment, hchild]
    simp only [List.append_assoc]

theorem below_nodup (i : Fin n) : (below visits i).Nodup := by
  obtain ⟨before, after, hsegment⟩ := h.exists_segment i
  exact h.nodup_of_segment hsegment

/-- A node comes first, and behind it what lies below its children, one after the other. -/
theorem below_eq (i : Fin n) : below visits i = i :: (children visits i).flatMap (below visits) :=
  below_eq_of_nodup (h.below_nodup i)

theorem below_child {i c : Fin n} (hc : c ∈ children visits i) :
    ∃ front back, below visits i = i :: front ++ below visits c ++ back :=
  below_child_of_nodup (h.below_nodup i) hc

theorem preorder_perm : (preorder visits).Perm (List.finRange n) := by
  refine (List.perm_ext_iff_of_nodup h.preorder_nodup (List.nodup_finRange n)).mpr fun i => ?_
  refine iff_of_true ?_ (List.mem_finRange i)
  obtain ⟨before, after, hsegment⟩ := h.exists_segment i
  rw [hsegment, h.below_eq i]
  simp

theorem mem_below_iff {i j : Fin n} :
    j ∈ below visits i ↔ Relation.ReflTransGen (fun p c => c ∈ children visits p) i j := by
  constructor
  · intro hj
    obtain ⟨k, hk, hbelow⟩ := exists_of_mem_walk hj
    rw [List.mem_singleton.mp hk] at hbelow
    simpa only [children_linked] using hbelow
  · intro hbelow
    induction hbelow using Relation.ReflTransGen.head_induction_on with
    | refl =>
      rw [h.below_eq j]
      exact List.mem_cons_self
    | head hchild _ ih =>
      rw [h.below_eq]
      exact List.mem_cons_of_mem _ (List.mem_flatMap.mpr ⟨_, hchild, ih⟩)

theorem parent_before_child {i c : Fin n} (hc : c ∈ children visits i) : [i, c].Sublist (preorder visits) := by
  obtain ⟨before, after, hsegment⟩ := h.exists_segment i
  have hrest : c ∈ (children visits i).flatMap (below visits) :=
    List.mem_flatMap.mpr ⟨c, hc, h.mem_below_iff.mpr .refl⟩
  have hpair : [i, c].Sublist (below visits i) := by
    rw [h.below_eq i]
    exact (List.singleton_sublist.mpr hrest).cons_cons i
  rw [hsegment, List.append_assoc]
  exact (hpair.trans (List.sublist_append_left _ _)).trans (List.sublist_append_right _ _)

end Spans

end Forest

/-! ## The forest of a graph -/

namespace CallGraph

open Forest

variable (g : CallGraph) (root : Option (Fin g.size))

theorem leads_of_mem_forest {visit : Visit g.size} (h : visit ∈ g.forest root) :
    (visit.parent = none ∧ visit.level = 0) ∨ ∃ earlier ∈ g.forest root, g.Leads earlier visit :=
  leads_of_mem_forestFrom h

theorem forest_spans : Spans (g.forest root) where
  nodes := g.closed_finRange.forestFrom_perm fun _ hi => List.mem_append_right _ hi
  start visit hvisit hparent := by
    rcases g.leads_of_mem_forest root hvisit with ⟨-, hlevel⟩ | ⟨earlier, -, hleads⟩
    · exact hlevel
    · rw [hleads.parent] at hparent
      cases hparent
  step visit hvisit p hparent := by
    rcases g.leads_of_mem_forest root hvisit with ⟨hnone, -⟩ | ⟨earlier, hearlier, hleads⟩
    · rw [hnone] at hparent
      cases hparent
    · rw [hleads.parent] at hparent
      exact ⟨earlier, hearlier, Option.some.inj hparent, hleads.level⟩

theorem adj_of_mem_children {i c : Fin g.size} (h : c ∈ children (g.forest root) i) : g.undirected.Adj i c := by
  obtain ⟨visit, hvisit, hparent, rfl⟩ := mem_children_iff.mp h
  rcases g.leads_of_mem_forest root hvisit with ⟨hnone, -⟩ | ⟨earlier, -, hleads⟩
  · rw [hnone] at hparent
    cases hparent
  · rw [hleads.parent] at hparent
    exact Option.some.inj hparent ▸ hleads.adj

/-- The first start that can reach a node, as far away as the level of the node says. -/
theorem exists_firstStart (i : Fin g.size) :
    ∃ start, g.firstStart (root.toList ++ List.finRange g.size) i = some start ∧
      g.undirected.edist start i = level (g.forest root) i := by
  obtain ⟨visit, hvisit, rfl⟩ := (g.forest_spans root).exists_visit i
  rw [(g.forest_spans root).level_eq hvisit]
  exact g.closed_finRange.firstStart_forestFrom hvisit

theorem mem_roots_forest_iff (r : Fin g.size) :
    r ∈ roots (g.forest root) ↔ g.firstStart (root.toList ++ List.finRange g.size) r = some r := by
  obtain ⟨start, hstart, hdist⟩ := g.exists_firstStart root r
  have hzero : level (g.forest root) r = 0 ↔ start = r := by
    rw [← SimpleGraph.edist_eq_zero_iff (G := g.undirected), hdist, Nat.cast_eq_zero]
  rw [(g.forest_spans root).mem_roots_iff_level, hzero, hstart, Option.some.injEq]

theorem firstStart_eq_some {i r : Fin g.size}
    (h : g.firstStart (root.toList ++ List.finRange g.size) i = some r) :
    (∀ given, root = some given → g.undirected.Reachable given i → r = given) ∧
      ((∀ given, root = some given → ¬ g.undirected.Reachable given i) → ∀ j, g.undirected.Reachable j i → r ≤ j) := by
  -- Without a root that can reach the node, the first start that can is the first such node.
  have hleast : g.firstStart (List.finRange g.size) i = some r → ∀ j, g.undirected.Reachable j i → r ≤ j := by
    intro hfind j hj
    obtain ⟨-, before, after, hsplit, hbefore⟩ := List.find?_eq_some_iff_append.mp hfind
    have hordered := List.pairwise_lt_finRange g.size
    have hmem := List.mem_finRange j
    rw [hsplit] at hordered hmem
    rcases List.mem_append.mp hmem with hfront | hback
    · exact absurd hj (by simpa using hbefore j hfront)
    · rcases List.mem_cons.mp hback with rfl | hlater
      · exact le_rfl
      · exact (List.rel_of_pairwise_cons (List.pairwise_append.mp hordered).2.1 hlater).le
  cases root with
  | none => exact ⟨nofun, fun _ => hleast h⟩
  | some given =>
    change g.firstStart (given :: List.finRange g.size) i = some r at h
    by_cases hreach : g.undirected.Reachable given i
    · rw [firstStart_cons_of_reachable hreach] at h
      refine ⟨fun other hother _ => ?_, fun hfar => absurd hreach (hfar given rfl)⟩
      exact (Option.some.inj h).symm.trans (Option.some.inj hother)
    · rw [firstStart_cons_of_not_reachable hreach] at h
      refine ⟨fun other hother hother' => absurd hother' ?_, fun _ => hleast h⟩
      rwa [← Option.some.inj hother]

/-- A forest of shortest ways through a graph.

Every node is once a root or a child, and a link joins it with its parent. Every node can be reached from one root only,
which is the given one if that can reach it and the first node that can otherwise, and its level is its distance from
there. The walk through the trees has every node once, parents before children, and all that lies below a node in one
piece. -/
structure ShortestForest (visits : List (Visit g.size)) : Prop where
  once : (roots visits ++ (List.finRange g.size).flatMap (children visits)).Perm (List.finRange g.size)
  linked : ∀ i, ∀ c ∈ children visits i, i ≠ c ∧ (⟨i, c⟩ ∈ g.links ∨ ⟨c, i⟩ ∈ g.links)
  rooted : ∀ i, ∃ r ∈ roots visits, g.undirected.Reachable r i ∧
    (∀ s ∈ roots visits, g.undirected.Reachable s i → s = r) ∧
    (∀ given, root = some given → g.undirected.Reachable given i → r = given) ∧
    ((∀ given, root = some given → ¬ g.undirected.Reachable given i) → ∀ j, g.undirected.Reachable j i → r ≤ j) ∧
    level visits i = g.undirected.dist r i
  adjacent : ∀ i j, g.undirected.Adj i j → level visits i ≤ level visits j + 1
  walked_once : (preorder visits).Perm (List.finRange g.size)
  parent_first : ∀ i, ∀ c ∈ children visits i, [i, c].Sublist (preorder visits)
  one_piece : ∀ i, ∃ before subtree after, preorder visits = before ++ subtree ++ after ∧
    ∀ j, j ∈ subtree ↔ Relation.ReflTransGen (fun p c => c ∈ children visits p) i j

theorem forest_spans_shortest : g.ShortestForest root (g.forest root) := by
  have hspans := g.forest_spans root
  refine ⟨hspans.roots_children_perm, fun i c hc => g.adj_of_mem_children root hc, fun i => ?_, fun i j hadj => ?_,
    hspans.preorder_perm, fun i c hc => hspans.parent_before_child hc, fun i => ?_⟩
  · obtain ⟨r, hr, hlevel⟩ := g.exists_firstStart root i
    obtain ⟨hreach, hdist⟩ := (edist_eq_coe_iff_dist _ _ _ _).mp hlevel
    obtain ⟨hgiven, hleast⟩ := g.firstStart_eq_some root hr
    refine ⟨r, ?_, hreach, fun s hs hsi => ?_, hgiven, hleast, hdist.symm⟩
    · rw [g.mem_roots_forest_iff, firstStart_congr _ hreach, hr]
    · rw [g.mem_roots_forest_iff, firstStart_congr _ hsi, hr] at hs
      exact (Option.some.inj hs).symm
  · obtain ⟨r, hr, hi⟩ := g.exists_firstStart root i
    obtain ⟨s, hs, hj⟩ := g.exists_firstStart root j
    rw [firstStart_congr _ hadj.reachable, hs] at hr
    cases hr
    have htriangle := SimpleGraph.edist_triangle (G := g.undirected) (u := r) (v := j) (w := i)
    rw [hi, hj, SimpleGraph.edist_eq_one_iff_adj.mpr hadj.symm] at htriangle
    exact_mod_cast htriangle
  · obtain ⟨before, after, hsegment⟩ := hspans.exists_segment i
    exact ⟨before, below (g.forest root) i, after, hsegment, fun j => hspans.mem_below_iff⟩

end CallGraph

end CallAtlas
