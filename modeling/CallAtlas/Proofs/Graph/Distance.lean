import CallAtlas.Graph.BreadthFirst
import CallAtlas.Proofs.Graph.Adjacency

/-! Breadth-first search finds what can be reached, at its distance.

`undirected` is the graph of the proper links, whichever way they lead. `Frontier` is what holds of a search between
two visits: the queue is in order of distance and spans two distances at most, and nothing that has not been found is
next to something found outside the queue. So what a visit finds is one step farther than the visit
(`Frontier.edist_fresh`), one visit leads from frontier to frontier (`Frontier.step`), and a search that has ended has
found all that can be reached (`Frontier.not_reachable`). -/

namespace CallAtlas

set_option autoImplicit false

open BreadthFirst

namespace CallGraph

/-- The nodes, joined by the proper links in both directions. -/
def undirected (g : CallGraph) : SimpleGraph (Fin g.size) where
  Adj i j := i ≠ j ∧ (⟨i, j⟩ ∈ g.links ∨ ⟨j, i⟩ ∈ g.links)
  symm := ⟨fun _ _ h => ⟨h.1.symm, h.2.symm⟩⟩
  loopless := ⟨fun _ h => h.1 rfl⟩

theorem mem_neighbours_iff (g : CallGraph) (i j : Fin g.size) : j ∈ g.neighbours i ↔ g.undirected.Adj i j := by
  rw [neighbours_eq_filterMap, List.mem_filterMap]
  constructor
  · rintro ⟨l, hl, hend⟩
    have hproper := g.properLinks_not_loop l hl
    have hmem : l ∈ g.links := List.mem_of_mem_filter hl
    rcases (Link.otherEnd_eq_some_iff l hproper i j).mp hend with rfl | rfl
    · exact ⟨by simpa [Link.isLoop] using hproper, Or.inl hmem⟩
    · exact ⟨Ne.symm (by simpa [Link.isLoop] using hproper), Or.inr hmem⟩
  · rintro ⟨hne, hlink⟩
    obtain ⟨l, hl, hends⟩ : ∃ l ∈ g.links, l = ⟨i, j⟩ ∨ l = ⟨j, i⟩ := by
      rcases hlink with hlink | hlink
      · exact ⟨_, hlink, Or.inl rfl⟩
      · exact ⟨_, hlink, Or.inr rfl⟩
    have hproper : l.isLoop = false := by
      rcases hends with rfl | rfl
      · simpa [Link.isLoop] using hne
      · simpa [Link.isLoop] using hne.symm
    exact ⟨l, List.mem_filter.mpr ⟨hl, by rw [hproper]; rfl⟩, (Link.otherEnd_eq_some_iff l hproper i j).mpr hends⟩

end CallGraph

/-! ## Distances -/

/-- A distance is the length of some walk and of no longer one. -/
theorem edist_eq_coe_iff {V : Type} (G : SimpleGraph V) (u v : V) (d : ℕ) :
    G.edist u v = d ↔ (∃ p : G.Walk u v, p.length = d) ∧ ∀ p : G.Walk u v, d ≤ p.length := by
  constructor
  · intro h
    refine ⟨SimpleGraph.exists_walk_of_edist_eq_coe h, fun p => ?_⟩
    have hle := SimpleGraph.edist_le p
    rw [h] at hle
    exact_mod_cast hle
  · rintro ⟨⟨p, rfl⟩, hleast⟩
    refine le_antisymm (SimpleGraph.edist_le p) ?_
    obtain ⟨q, hq⟩ := p.reachable.exists_walk_length_eq_edist
    rw [← hq]
    exact_mod_cast hleast q

theorem edist_eq_coe_iff_dist {V : Type} (G : SimpleGraph V) (u v : V) (d : ℕ) :
    G.edist u v = d ↔ G.Reachable u v ∧ G.dist u v = d := by
  constructor
  · intro h
    have hreach : G.Reachable u v := SimpleGraph.reachable_of_edist_ne_top (by rw [h]; exact ENat.natCast_ne_top d)
    refine ⟨hreach, ?_⟩
    rw [← hreach.coe_dist_eq_edist] at h
    exact_mod_cast h
  · rintro ⟨hreach, rfl⟩
    exact hreach.coe_dist_eq_edist.symm

/-! ## One visit -/

namespace BreadthFirst

variable {n : ℕ}

theorem discover_perm (unseen candidates : List (Fin n)) :
    ((discover unseen candidates).1 ++ (discover unseen candidates).2).Perm unseen := by
  induction candidates generalizing unseen with
  | nil => exact List.Perm.refl _
  | cons j rest ih =>
    rw [discover]
    split
    · next hj => exact ((ih (unseen.erase j)).cons j).trans (List.perm_cons_erase hj).symm
    · exact ih unseen

theorem mem_candidates_of_discover {unseen candidates : List (Fin n)} {j : Fin n}
    (h : j ∈ (discover unseen candidates).1) : j ∈ candidates := by
  induction candidates generalizing unseen with
  | nil => cases h
  | cons k rest ih =>
    rw [discover] at h
    split at h
    · rcases List.mem_cons.mp h with rfl | hrest
      · exact List.mem_cons_self
      · exact List.mem_cons_of_mem k (ih hrest)
    · exact List.mem_cons_of_mem k (ih h)

theorem not_mem_candidates_of_left {unseen candidates : List (Fin n)} (hunseen : unseen.Nodup) {j : Fin n}
    (h : j ∈ (discover unseen candidates).2) : j ∉ candidates := by
  induction candidates generalizing unseen with
  | nil => exact List.not_mem_nil
  | cons k rest ih =>
    rw [discover] at h
    split at h
    · have hmem : j ∈ unseen.erase k := (discover_perm _ rest).mem_iff.mp (List.mem_append_right _ h)
      have hne : j ≠ k := fun hjk => hunseen.not_mem_erase (hjk ▸ hmem)
      exact List.not_mem_cons_of_ne_of_not_mem hne (ih (hunseen.erase k) h)
    · next hk =>
      have hmem : j ∈ unseen := (discover_perm _ rest).mem_iff.mp (List.mem_append_right _ h)
      have hne : j ≠ k := fun hjk => hk (hjk ▸ hmem)
      exact List.not_mem_cons_of_ne_of_not_mem hne (ih hunseen h)

end BreadthFirst

namespace CallGraph

variable {g : CallGraph} {start : Fin g.size} {visit : Visit g.size} {rest : List (Visit g.size)}
  {unseen : List (Fin g.size)}

/-- What a visit adds to the queue. -/
def fresh (g : CallGraph) (visit : Visit g.size) (unseen : List (Fin g.size)) : List (Visit g.size) :=
  (discover unseen (g.neighbours visit.node)).1.map fun j => ⟨j, some visit.node, visit.level + 1⟩

/-- What a visit does not find. -/
def left (g : CallGraph) (visit : Visit g.size) (unseen : List (Fin g.size)) : List (Fin g.size) :=
  (discover unseen (g.neighbours visit.node)).2

theorem fresh_left_perm (visit : Visit g.size) (unseen : List (Fin g.size)) :
    ((g.fresh visit unseen).map (·.node) ++ g.left visit unseen).Perm unseen := by
  rw [fresh, List.map_map]
  change ((discover unseen _).1.map id ++ _).Perm unseen
  rw [List.map_id]
  exact discover_perm unseen (g.neighbours visit.node)

theorem mem_fresh {next : Visit g.size} (h : next ∈ g.fresh visit unseen) :
    next.node ∈ unseen ∧ g.undirected.Adj visit.node next.node ∧ next.parent = some visit.node ∧
      next.level = visit.level + 1 := by
  have hunseen : next.node ∈ unseen :=
    (fresh_left_perm visit unseen).mem_iff.mp (List.mem_append_left _ (List.mem_map_of_mem h))
  obtain ⟨j, hj, rfl⟩ := List.mem_map.mp h
  exact ⟨hunseen, (g.mem_neighbours_iff visit.node j).mp (mem_candidates_of_discover hj), rfl, rfl⟩

theorem mem_left {i : Fin g.size} (h : i ∈ g.left visit unseen) : i ∈ unseen :=
  (fresh_left_perm visit unseen).mem_iff.mp (List.mem_append_right _ h)

/-- Nothing next to a visit is left. -/
theorem not_adj_of_left (hunseen : unseen.Nodup) {i : Fin g.size} (h : i ∈ g.left visit unseen) :
    ¬ g.undirected.Adj visit.node i :=
  fun hadj => not_mem_candidates_of_left hunseen h ((g.mem_neighbours_iff visit.node i).mpr hadj)

/-! ## Searches -/

/-- A search from `start` between two visits. -/
structure Frontier (g : CallGraph) (start : Fin g.size) (queue : List (Visit g.size)) (unseen : List (Fin g.size)) :
    Prop where
  found : start ∉ unseen
  distinct : unseen.Nodup
  levels : ∀ visit ∈ queue, g.undirected.edist start visit.node = visit.level
  ordered : queue.Pairwise fun a b => a.level ≤ b.level ∧ b.level ≤ a.level + 1
  border : ∀ i ∈ unseen, ∀ j, g.undirected.Adj i j → j ∈ unseen ∨ ∃ visit ∈ queue, visit.node = j

/-- What has not been found is farther away than the visit whose turn it is: on the way to it a walk leaves the nodes
that have been found through the queue. -/
theorem Frontier.level_lt_length (h : g.Frontier start (visit :: rest) unseen) {i : Fin g.size}
    (p : g.undirected.Walk i start) (hi : i ∈ unseen) : visit.level < p.length := by
  induction p with
  | nil => exact absurd hi h.found
  | @cons i j start hadj p ih =>
    rw [SimpleGraph.Walk.length_cons]
    rcases h.border i hi j hadj with hj | ⟨next, hnext, rfl⟩
    · exact (ih h hj).trans (Nat.lt_succ_self _)
    · have hlevel : visit.level ≤ next.level := by
        rcases List.mem_cons.mp hnext with rfl | hrest
        · exact le_rfl
        · exact (List.rel_of_pairwise_cons h.ordered hrest).1
      have hlength := ((edist_eq_coe_iff _ _ _ _).mp (h.levels next hnext)).2 p.reverse
      rw [SimpleGraph.Walk.length_reverse] at hlength
      omega

theorem Frontier.edist_fresh (h : g.Frontier start (visit :: rest) unseen) {next : Visit g.size}
    (hnext : next ∈ g.fresh visit unseen) : g.undirected.edist start next.node = next.level := by
  obtain ⟨hunseen, hadj, -, hlevel⟩ := mem_fresh hnext
  obtain ⟨p, hp⟩ := ((edist_eq_coe_iff _ _ _ _).mp (h.levels visit List.mem_cons_self)).1
  rw [edist_eq_coe_iff, hlevel]
  refine ⟨⟨p.concat hadj, by rw [SimpleGraph.Walk.length_concat, hp]⟩, fun q => ?_⟩
  have hfar := h.level_lt_length q.reverse hunseen
  rwa [SimpleGraph.Walk.length_reverse] at hfar

/-- One visit leads from frontier to frontier. -/
theorem Frontier.step (h : g.Frontier start (visit :: rest) unseen) :
    g.Frontier start (rest ++ g.fresh visit unseen) (g.left visit unseen) where
  found hstart := h.found (mem_left hstart)
  distinct := (List.nodup_append.mp ((fresh_left_perm visit unseen).nodup_iff.mpr h.distinct)).2.1
  levels next hnext := by
    rcases List.mem_append.mp hnext with hrest | hfresh
    · exact h.levels next (List.mem_cons_of_mem visit hrest)
    · exact h.edist_fresh hfresh
  ordered := by
    obtain ⟨hfirst, hrest⟩ := List.pairwise_cons.mp h.ordered
    refine List.pairwise_append.mpr ⟨hrest, List.pairwise_of_forall_mem_list fun a ha b hb => ?_, fun a ha b hb => ?_⟩
    · have := (mem_fresh ha).2.2.2
      have := (mem_fresh hb).2.2.2
      omega
    · have := hfirst a ha
      have := (mem_fresh hb).2.2.2
      omega
  border i hi j hadj := by
    rcases h.border i (mem_left hi) j hadj with hj | ⟨next, hnext, rfl⟩
    · rcases List.mem_append.mp ((fresh_left_perm visit unseen).mem_iff.mpr hj) with hfresh | hleft
      · obtain ⟨next, hnext, rfl⟩ := List.mem_map.mp hfresh
        exact Or.inr ⟨next, List.mem_append_right _ hnext, rfl⟩
      · exact Or.inl hleft
    · rcases List.mem_cons.mp hnext with rfl | hrest
      · exact absurd hadj.symm (not_adj_of_left h.distinct hi)
      · exact Or.inr ⟨next, List.mem_append_left _ hrest, rfl⟩

/-- A search neither loses nor repeats a node. -/
theorem explore_perm (g : CallGraph) (queue : List (Visit g.size)) (unseen : List (Fin g.size)) :
    ((g.explore queue unseen).1.map (·.node) ++ (g.explore queue unseen).2).Perm (queue.map (·.node) ++ unseen) := by
  fun_induction explore g queue unseen with
  | case1 unseen => exact List.Perm.refl _
  | case2 unseen visit rest found fresh visits remaining hrest ih =>
    rw [hrest] at ih
    refine (ih.cons visit.node).trans ?_
    rw [List.map_cons, List.cons_append, List.map_append, List.append_assoc]
    exact ((fresh_left_perm visit unseen).append_left _).cons _

/-- From a frontier on, every node is visited at its distance, and what is left at the end is next to nothing that has
been found. -/
theorem Frontier.explore {queue : List (Visit g.size)} (h : g.Frontier start queue unseen) :
    (∀ visit ∈ (g.explore queue unseen).1, g.undirected.edist start visit.node = visit.level) ∧
      g.Frontier start [] (g.explore queue unseen).2 := by
  fun_induction CallGraph.explore g queue unseen with
  | case1 unseen => exact ⟨fun visit hvisit => (nomatch hvisit), h⟩
  | case2 unseen visit rest found fresh visits remaining hrest ih =>
    rw [hrest] at ih
    obtain ⟨hlevels, hend⟩ := ih h.step
    refine ⟨fun next hnext => ?_, hend⟩
    rcases List.mem_cons.mp hnext with rfl | hlater
    · exact h.levels next List.mem_cons_self
    · exact hlevels next hlater

/-- At the end of a search nothing that is left can be reached. -/
theorem Frontier.not_reachable (h : g.Frontier start [] unseen) {i : Fin g.size} (hi : i ∈ unseen) :
    ¬ g.undirected.Reachable start i := by
  rintro ⟨p⟩
  induction p using SimpleGraph.Walk.concatRec with
  | Hnil => exact h.found hi
  | Hconcat p hadj ih =>
    rcases h.border _ hi _ hadj.symm with hj | ⟨visit, hvisit, -⟩
    · exact ih h hj
    · cases hvisit

/-! ## Searches from one node -/

/-- Nothing in the list is next to a node that is not. -/
structure Closed (g : CallGraph) (unseen : List (Fin g.size)) : Prop where
  distinct : unseen.Nodup
  closed : ∀ i ∈ unseen, ∀ j, g.undirected.Adj i j → j ∈ unseen

theorem closed_finRange (g : CallGraph) : g.Closed (List.finRange g.size) :=
  ⟨List.nodup_finRange g.size, fun _ _ j _ => List.mem_finRange j⟩

theorem Closed.mem_of_reachable (h : g.Closed unseen) {i j : Fin g.size} (hi : i ∈ unseen)
    (hreach : g.undirected.Reachable i j) : j ∈ unseen := by
  obtain ⟨p⟩ := hreach
  induction p with
  | nil => exact hi
  | cons hadj _ ih => exact ih (h.closed _ hi _ hadj)

theorem Closed.frontier (h : g.Closed unseen) (start : Fin g.size) :
    g.Frontier start [⟨start, none, 0⟩] (unseen.erase start) where
  found := h.distinct.not_mem_erase
  distinct := h.distinct.erase start
  levels visit hvisit := by
    rw [List.mem_singleton.mp hvisit]
    exact SimpleGraph.edist_self
  ordered := List.pairwise_singleton _ _
  border i hi j hadj := by
    by_cases hj : j = start
    · exact Or.inr ⟨_, List.mem_singleton_self _, hj.symm⟩
    · exact Or.inl ((List.mem_erase_of_ne hj).mpr (h.closed i (List.mem_of_mem_erase hi) j hadj))

/-- What a search leaves is closed. -/
theorem Frontier.closed (h : g.Frontier start [] unseen) : g.Closed unseen where
  distinct := h.distinct
  closed i hi j hadj := by
    rcases h.border i hi j hadj with hj | ⟨visit, hvisit, -⟩
    · exact hj
    · cases hvisit

theorem frontier_start (g : CallGraph) (start : Fin g.size) :
    g.Frontier start [⟨start, none, 0⟩] ((List.finRange g.size).erase start) :=
  g.closed_finRange.frontier start

theorem mem_visitsFrom_iff (g : CallGraph) (start i : Fin g.size) :
    i ∈ (g.visitsFrom start).map (·.node) ↔ g.undirected.Reachable start i := by
  obtain ⟨hlevels, hend⟩ := (g.frontier_start start).explore
  constructor
  · intro h
    obtain ⟨visit, hvisit, rfl⟩ := List.mem_map.mp h
    exact ((edist_eq_coe_iff_dist _ _ _ _).mp (hlevels visit hvisit)).1
  · intro hreach
    have hperm := g.explore_perm [⟨start, none, 0⟩] ((List.finRange g.size).erase start)
    have hall : i ∈ [start] ++ (List.finRange g.size).erase start :=
      (List.perm_cons_erase (List.mem_finRange start)).mem_iff.mp (List.mem_finRange i)
    rcases List.mem_append.mp (hperm.mem_iff.mpr hall) with hfound | hleft
    · exact hfound
    · exact absurd hreach (hend.not_reachable hleft)

/-- The level at which a search finds a node is its distance, and a node without one cannot be reached. -/
theorem level_visitsFrom_iff (g : CallGraph) (start i : Fin g.size) (d : ℕ) :
    ((g.visitsFrom start).find? (·.node = i)).map (·.level) = some d ↔
      g.undirected.Reachable start i ∧ g.undirected.dist start i = d := by
  have hlevels := (g.frontier_start start).explore.1
  rw [← edist_eq_coe_iff_dist]
  cases hfind : (g.visitsFrom start).find? (·.node = i) with
  | none =>
    have hmiss : i ∉ (g.visitsFrom start).map (·.node) := by simpa using hfind
    refine iff_of_false nofun fun h => hmiss ?_
    exact (g.mem_visitsFrom_iff start i).mpr ((edist_eq_coe_iff_dist _ _ _ _).mp h).1
  | some visit =>
    have hnode : visit.node = i := by simpa using List.find?_some hfind
    have hlevel := hlevels visit (List.mem_of_find?_eq_some hfind)
    rw [hnode] at hlevel
    rw [hlevel]
    simp

end CallGraph

end CallAtlas
