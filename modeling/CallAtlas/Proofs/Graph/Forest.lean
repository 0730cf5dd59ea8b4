import CallAtlas.Proofs.Graph.Distance

/-! One search after the other finds every node, in the tree of the first start of its component.

Between two searches what has not been found is closed under links (`Closed`). So the next search finds the component of
its start and nothing else (`Closed.search`), and a node is found from the first of all starts that can reach it, at its
distance from there (`Closed.firstStart_forestFrom`). -/

namespace CallAtlas

set_option autoImplicit false

namespace CallGraph

variable {g : CallGraph} {unseen : List (Fin g.size)}

/-! ## What was found from what -/

/-- The second visit was found along a link from the first. -/
structure Leads (g : CallGraph) (earlier later : Visit g.size) : Prop where
  adj : g.undirected.Adj earlier.node later.node
  parent : later.parent = some earlier.node
  level : later.level = earlier.level + 1

theorem leads_of_mem_explore (queue : List (Visit g.size)) {visit : Visit g.size}
    (h : visit ∈ (g.explore queue unseen).1) :
    visit ∈ queue ∨ ∃ earlier ∈ (g.explore queue unseen).1, g.Leads earlier visit := by
  fun_induction explore g queue unseen with
  | case1 unseen => cases h
  | case2 unseen first rest found fresh visits remaining hrest ih =>
    rw [hrest] at ih
    rcases List.mem_cons.mp h with rfl | hlater
    · exact Or.inl List.mem_cons_self
    · rcases ih hlater with hqueue | ⟨earlier, hearlier, hleads⟩
      · rcases List.mem_append.mp hqueue with hwaiting | hfresh
        · exact Or.inl (List.mem_cons_of_mem _ hwaiting)
        · obtain ⟨-, hadj, hparent, hlevel⟩ := mem_fresh hfresh
          exact Or.inr ⟨first, List.mem_cons_self, hadj, hparent, hlevel⟩
      · exact Or.inr ⟨earlier, List.mem_cons_of_mem _ hearlier, hleads⟩

/-! ## One search -/

/-- The search from one of the nodes that have not been found. -/
def search (g : CallGraph) (unseen : List (Fin g.size)) (start : Fin g.size) :
    List (Visit g.size) × List (Fin g.size) :=
  g.explore [⟨start, none, 0⟩] (unseen.erase start)

theorem forestFrom_cons_of_mem {start : Fin g.size} (hstart : start ∈ unseen) (rest : List (Fin g.size)) :
    g.forestFrom unseen (start :: rest) =
      (g.search unseen start).1 ++ g.forestFrom (g.search unseen start).2 rest := by
  rw [forestFrom, if_pos hstart]
  rfl

theorem forestFrom_cons_of_not_mem {start : Fin g.size} (hstart : start ∉ unseen) (rest : List (Fin g.size)) :
    g.forestFrom unseen (start :: rest) = g.forestFrom unseen rest := by
  rw [forestFrom, if_neg hstart]

theorem search_perm {start : Fin g.size} (hstart : start ∈ unseen) :
    ((g.search unseen start).1.map (·.node) ++ (g.search unseen start).2).Perm unseen :=
  (g.explore_perm _ _).trans (List.perm_cons_erase hstart).symm

/-- A search finds nodes at their distance from the start, and leaves a closed list of nodes that it cannot reach. -/
theorem Closed.search (h : g.Closed unseen) (start : Fin g.size) :
    (∀ visit ∈ (g.search unseen start).1, g.undirected.edist start visit.node = visit.level) ∧
      g.Closed (g.search unseen start).2 ∧
      ∀ i ∈ (g.search unseen start).2, ¬ g.undirected.Reachable start i := by
  obtain ⟨hlevels, hend⟩ := (h.frontier start).explore
  exact ⟨hlevels, hend.closed, fun i hi => hend.not_reachable hi⟩

/-! ## One search after the other -/

theorem node_mem_of_mem_forestFrom {starts : List (Fin g.size)} {visit : Visit g.size}
    (h : visit ∈ g.forestFrom unseen starts) : visit.node ∈ unseen := by
  induction starts generalizing unseen with
  | nil => cases h
  | cons start rest ih =>
    by_cases hstart : start ∈ unseen
    · rw [forestFrom_cons_of_mem hstart] at h
      refine (search_perm hstart).mem_iff.mp (List.mem_append.mpr ?_)
      exact (List.mem_append.mp h).imp List.mem_map_of_mem ih
    · rw [forestFrom_cons_of_not_mem hstart] at h
      exact ih h

theorem leads_of_mem_forestFrom {starts : List (Fin g.size)} {visit : Visit g.size}
    (h : visit ∈ g.forestFrom unseen starts) :
    (visit.parent = none ∧ visit.level = 0) ∨ ∃ earlier ∈ g.forestFrom unseen starts, g.Leads earlier visit := by
  induction starts generalizing unseen with
  | nil => cases h
  | cons start rest ih =>
    by_cases hstart : start ∈ unseen
    · rw [forestFrom_cons_of_mem hstart] at h ⊢
      rcases List.mem_append.mp h with hfirst | hrest
      · rcases leads_of_mem_explore _ hfirst with hqueue | ⟨earlier, hearlier, hleads⟩
        · rw [List.mem_singleton.mp hqueue]
          exact Or.inl ⟨rfl, rfl⟩
        · exact Or.inr ⟨earlier, List.mem_append_left _ hearlier, hleads⟩
      · refine (ih hrest).imp_right ?_
        rintro ⟨earlier, hearlier, hleads⟩
        exact ⟨earlier, List.mem_append_right _ hearlier, hleads⟩
    · rw [forestFrom_cons_of_not_mem hstart] at h ⊢
      exact ih h

theorem Closed.forestFrom_perm (h : g.Closed unseen) {starts : List (Fin g.size)} (hstarts : ∀ i ∈ unseen, i ∈ starts) :
    ((g.forestFrom unseen starts).map (·.node)).Perm unseen := by
  induction starts generalizing unseen with
  | nil =>
    have hnil : unseen = [] := List.eq_nil_iff_forall_not_mem.mpr fun i hi => List.not_mem_nil (hstarts i hi)
    rw [hnil]
    exact List.Perm.nil
  | cons start rest ih =>
    by_cases hstart : start ∈ unseen
    · obtain ⟨-, hclosed, hfar⟩ := h.search start
      have hleft : ∀ i ∈ (g.search unseen start).2, i ∈ rest := by
        intro i hi
        have hmem : i ∈ start :: rest := hstarts i ((search_perm hstart).mem_iff.mp (List.mem_append_right _ hi))
        refine (List.mem_cons.mp hmem).resolve_left fun hsame => hfar i hi ?_
        rw [hsame]
      rw [forestFrom_cons_of_mem hstart, List.map_append]
      exact ((ih hclosed hleft).append_left _).trans (search_perm hstart)
    · rw [forestFrom_cons_of_not_mem hstart]
      refine ih h fun i hi => (List.mem_cons.mp (hstarts i hi)).resolve_left ?_
      exact fun hsame => hstart (hsame ▸ hi)

/-! ## The start of a tree -/

open Classical in
/-- The first of several starts that can reach a node. -/
noncomputable def firstStart (g : CallGraph) (starts : List (Fin g.size)) (i : Fin g.size) : Option (Fin g.size) :=
  starts.find? fun start => g.undirected.Reachable start i

theorem firstStart_congr (starts : List (Fin g.size)) {i j : Fin g.size} (h : g.undirected.Reachable i j) :
    g.firstStart starts i = g.firstStart starts j := by
  have hsame : ∀ start, g.undirected.Reachable start i ↔ g.undirected.Reachable start j := fun start =>
    ⟨fun hi => hi.trans h, fun hj => hj.trans h.symm⟩
  exact congrArg (List.find? · starts) (funext fun start => decide_eq_decide.mpr (hsame start))

theorem firstStart_cons_of_reachable {start i : Fin g.size} (h : g.undirected.Reachable start i)
    (rest : List (Fin g.size)) : g.firstStart (start :: rest) i = some start :=
  List.find?_cons_of_pos (by simpa using h)

theorem firstStart_cons_of_not_reachable {start i : Fin g.size} (h : ¬ g.undirected.Reachable start i)
    (rest : List (Fin g.size)) : g.firstStart (start :: rest) i = g.firstStart rest i :=
  List.find?_cons_of_neg (by simpa using h)

theorem Closed.firstStart_forestFrom (h : g.Closed unseen) {starts : List (Fin g.size)} {visit : Visit g.size}
    (hvisit : visit ∈ g.forestFrom unseen starts) :
    ∃ start, g.firstStart starts visit.node = some start ∧
      g.undirected.edist start visit.node = visit.level := by
  induction starts generalizing unseen with
  | nil => cases hvisit
  | cons start rest ih =>
    by_cases hstart : start ∈ unseen
    · obtain ⟨hlevels, hclosed, hfar⟩ := h.search start
      rw [forestFrom_cons_of_mem hstart] at hvisit
      rcases List.mem_append.mp hvisit with hfirst | hrest
      · have hlevel := hlevels visit hfirst
        have hreach := ((edist_eq_coe_iff_dist _ _ _ _).mp hlevel).1
        exact ⟨start, firstStart_cons_of_reachable hreach rest, hlevel⟩
      · rw [firstStart_cons_of_not_reachable (hfar _ (node_mem_of_mem_forestFrom hrest))]
        exact ih hclosed hrest
    · rw [forestFrom_cons_of_not_mem hstart] at hvisit
      -- What has been found cannot be reached from what has not.
      have hfar : ¬ g.undirected.Reachable start visit.node := fun hreach =>
        hstart (h.mem_of_reachable (node_mem_of_mem_forestFrom hvisit) hreach.symm)
      rw [firstStart_cons_of_not_reachable hfar]
      exact ih h hvisit

end CallGraph

end CallAtlas
