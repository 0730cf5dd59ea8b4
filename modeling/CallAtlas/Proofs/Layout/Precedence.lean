import CallAtlas.Layout.Root
import CallAtlas.Proofs.Graph.Adjacency

/-! The root of a layout: the configured node, or else the first one of depth 0, or else the first of the busiest ones.

`maxBy` keeps an item that no other one exceeds (`maxBy_eq_some`). Where numbers of links are equal, the comparison puts
the lower node above, so the busiest node is the first one with the most links (`busiest_eq_some_iff`). Links of a graph
are all different, so that number counts the nodes that the payload links a node to (`ofSpec_outDegrees`). -/

namespace CallAtlas.CallGraph

set_option autoImplicit false

variable (g : CallGraph)

/-! ## The first node with a property -/

theorem find?_finRange_eq_some_iff {n : ℕ} (p : Fin n → Prop) [DecidablePred p] (i : Fin n) :
    (List.finRange n).find? (fun j => p j) = some i ↔ IsLeast {j | p j} i := by
  rw [List.find?_eq_some_iff_getElem]
  simp only [List.getElem_finRange, List.length_finRange, decide_eq_true_eq, Bool.not_eq_true', decide_eq_false_iff_not]
  constructor
  · rintro ⟨hi, k, hk, rfl, hbefore⟩
    exact ⟨hi, fun j hj => not_lt.mp fun hlt => hbefore j hlt hj⟩
  · rintro ⟨hi, hleast⟩
    exact ⟨hi, i, i.isLt, rfl, fun j hlt hj => (hleast hj).not_gt hlt⟩

/-! ## Busiest nodes -/

section

variable {τ : Type} {cmp : τ → τ → Ordering} [Std.TransCmp cmp]

/-- The best so far is replaced by nothing smaller, so in the end it is as large as every item. -/
theorem foldl_max (first : τ) (rest : List τ) :
    rest.foldl (fun best item => if cmp best item = .gt then best else item) first ∈ first :: rest ∧
      ∀ x ∈ first :: rest,
        (cmp x (rest.foldl (fun best item => if cmp best item = .gt then best else item) first)).isLE := by
  induction rest generalizing first with
  | nil => simp [Std.ReflCmp.compare_self]
  | cons item rest ih =>
    rw [List.foldl_cons]
    by_cases hgt : cmp first item = .gt
    · rw [if_pos hgt]
      obtain ⟨hmem, hmax⟩ := ih first
      obtain ⟨hfirst, hrest⟩ := List.forall_mem_cons.mp hmax
      have hswap : cmp item first = (cmp first item).swap := Std.OrientedCmp.eq_swap
      have hitem : (cmp item first).isLE := by
        rw [hswap, hgt]
        rfl
      refine ⟨?_, List.forall_mem_cons.mpr ⟨hfirst, List.forall_mem_cons.mpr ⟨?_, hrest⟩⟩⟩
      · exact List.cons_subset_cons _ (List.subset_cons_self _ _) hmem
      · exact Std.TransCmp.isLE_trans hitem hfirst
    · rw [if_neg hgt]
      obtain ⟨hmem, hmax⟩ := ih item
      obtain ⟨hitem, -⟩ := List.forall_mem_cons.mp hmax
      have hfirst : (cmp first item).isLE := Ordering.isLE_iff_ne_gt.mpr hgt
      exact ⟨List.mem_cons_of_mem first hmem,
        List.forall_mem_cons.mpr ⟨Std.TransCmp.isLE_trans hfirst hitem, hmax⟩⟩

theorem maxBy_eq_some {items : List τ} {largest : τ} (h : maxBy cmp items = some largest) :
    largest ∈ items ∧ ∀ x ∈ items, (cmp x largest).isLE := by
  cases items with
  | nil => cases h
  | cons first rest =>
    cases h
    exact foldl_max first rest

end

theorem maxBy_eq_none_iff {τ : Type} {cmp : τ → τ → Ordering} {items : List τ} :
    maxBy cmp items = none ↔ items = [] := by
  cases items <;> simp [maxBy]

instance {n : ℕ} : Std.TransCmp (compareBusy (n := n)) :=
  inferInstanceAs (Std.TransCmp (compareLex (compareOn Prod.snd) fun a b => compareOn Prod.fst b a))

theorem isLE_compareBusy {n : ℕ} (a b : Fin n × ℕ) :
    (compareBusy a b).isLE ↔ a.2 < b.2 ∨ a.2 = b.2 ∧ b.1 ≤ a.1 := by
  rw [compareBusy, Ordering.isLE_then_iff_or, Nat.compare_eq_lt, Nat.compare_eq_eq]
  exact or_congr_right (and_congr_right fun _ => Nat.isLE_compare)

theorem busiest_eq_none_iff : g.busiest = none ↔ g.size = 0 := by
  rw [busiest, Option.map_eq_none_iff, maxBy_eq_none_iff, List.map_eq_nil_iff, List.finRange_eq_nil_iff]

theorem isLeast_of_busiest {i : Fin g.size} (h : g.busiest = some i) :
    IsLeast {j | ∀ k, g.outDegrees.get k ≤ g.outDegrees.get j} i := by
  obtain ⟨largest, hlargest, rfl⟩ := Option.map_eq_some_iff.mp h
  obtain ⟨hmem, hmax⟩ := maxBy_eq_some hlargest
  obtain ⟨i, -, rfl⟩ := List.mem_map.mp hmem
  have hbefore : ∀ k, g.outDegrees.get k < g.outDegrees.get i ∨ g.outDegrees.get k = g.outDegrees.get i ∧ i ≤ k :=
    fun k => (isLE_compareBusy _ _).mp (hmax _ (List.mem_map_of_mem (List.mem_finRange k)))
  constructor
  · exact fun k => (hbefore k).elim le_of_lt fun hequal => hequal.1.le
  · exact fun j hj => (hbefore j).elim (fun hlt => absurd (hj i) hlt.not_ge) And.right

/-- Of the nodes with the most outgoing links the first one is the busiest. -/
theorem busiest_eq_some_iff (i : Fin g.size) :
    g.busiest = some i ↔ IsLeast {j | ∀ k, g.outDegrees.get k ≤ g.outDegrees.get j} i := by
  refine ⟨g.isLeast_of_busiest, fun hi => ?_⟩
  cases hbusiest : g.busiest with
  | none => exact absurd i.pos (g.busiest_eq_none_iff.mp hbusiest).not_gt
  | some j => rw [(g.isLeast_of_busiest hbusiest).unique hi]

/-! ## Outgoing links -/

theorem foldl_outDegrees {n : ℕ} (links : List (Link n)) (counts : Vector ℕ n) (i : Fin n) :
    (links.foldl (fun counts l => counts.set l.source (counts.get l.source + 1) l.source.isLt) counts).get i =
      counts.get i + links.countP (·.source = i) := by
  induction links generalizing counts with
  | nil => rfl
  | cons l rest ih =>
    rw [List.foldl_cons, ih, List.countP_cons]
    simp only [Vector.get_eq_getElem, Vector.getElem_set, Fin.val_inj, decide_eq_true_eq]
    split
    · next h =>
      subst h
      omega
    · rfl

theorem outDegrees_eq_countP (i : Fin g.size) :
    g.outDegrees.get i = g.links.countP fun l => l.source = i ∧ l.target ≠ i := by
  have hproper : g.outDegrees.get i = g.properLinks.countP (·.source = i) := by
    rw [outDegrees, foldl_outDegrees]
    simp [Vector.get_eq_getElem]
  rw [hproper, countP_properLinks]
  refine List.countP_congr fun l _ => ?_
  simp only [decide_eq_true_eq]
  constructor
  · rintro ⟨htarget, rfl⟩
    exact ⟨rfl, htarget.symm⟩
  · rintro ⟨rfl, htarget⟩
    exact ⟨htarget.symm, rfl⟩

/-- The nodes that the links of a payload lead to from a node, other than the node itself. -/
def linkedFrom (graph : GraphSpec) (i : Fin (ofSpec graph).size) : Set (Fin (ofSpec graph).size) :=
  {j | j ≠ i ∧ ∃ spec ∈ graph.links,
    spec.source = ((ofSpec graph).vertices.get i).id ∧ spec.target = ((ofSpec graph).vertices.get j).id}

/-- However often a link is repeated in the payload, it counts once. -/
theorem ofSpec_outDegrees (graph : GraphSpec) (i : Fin (ofSpec graph).size) :
    (ofSpec graph).outDegrees.get i = (linkedFrom graph i).ncard := by
  have hlinks : (ofSpec graph).links.Nodup := (ofSpec_links_pairwise graph).nodup
  -- The links that are counted share their source, so they differ in their targets.
  let targets := ((ofSpec graph).links.filter fun l => l.source = i ∧ l.target ≠ i).map (·.target)
  have htargets : targets.Nodup := by
    refine (hlinks.filter _).map_on fun l hl l' hl' heq => ?_
    have hsource : l.source = i := (of_decide_eq_true (List.mem_filter.mp hl).2).1
    have hsource' : l'.source = i := (of_decide_eq_true (List.mem_filter.mp hl').2).1
    cases l
    cases l'
    exact congrArg₂ Link.mk (hsource.trans hsource'.symm) heq
  have hmem : linkedFrom graph i = (targets.toFinset : Set (Fin (ofSpec graph).size)) := by
    ext j
    rw [linkedFrom, Set.mem_ofPred_eq, ← mem_ofSpec_links graph i j, List.coe_toFinset, Set.mem_ofPred_eq, List.mem_map]
    constructor
    · rintro ⟨hne, hlink⟩
      exact ⟨⟨i, j⟩, List.mem_filter.mpr ⟨hlink, decide_eq_true ⟨rfl, hne⟩⟩, rfl⟩
    · rintro ⟨⟨s, t⟩, hl, rfl⟩
      obtain ⟨hlink, hcounts⟩ := List.mem_filter.mp hl
      obtain ⟨rfl, hne⟩ := of_decide_eq_true hcounts
      exact ⟨hne, hlink⟩
  rw [outDegrees_eq_countP, List.countP_eq_length_filter, hmem, Set.ncard_coe_finset,
    List.toFinset_card_of_nodup htargets, List.length_map]

/-! ## Roots -/

/-- A layout has a root unless there are no nodes. -/
theorem resolveRoot_eq_none_iff (configured : Option String) :
    g.resolveRoot configured = none ↔ g.size = 0 := by
  constructor
  · intro h
    unfold resolveRoot at h
    split at h
    · cases h
    · split at h
      · cases h
      · exact g.busiest_eq_none_iff.mp h
  · intro h
    cases hroot : g.resolveRoot configured with
    | none => rfl
    | some r => exact absurd r.pos h.not_gt

theorem resolveRoot_of_configured {configured : Option String} {i : Fin g.size}
    (h : configured.bind g.indexOf = some i) : g.resolveRoot configured = some i := by
  rw [resolveRoot, h]

theorem resolveRoot_of_not_configured {configured : Option String} (h : configured.bind g.indexOf = none)
    (i : Fin g.size) :
    g.resolveRoot configured = some i ↔
      IsLeast {j | (g.vertices.get j).depth = some 0} i ∨
        (∀ j, (g.vertices.get j).depth ≠ some 0) ∧ IsLeast {j | ∀ k, g.outDegrees.get k ≤ g.outDegrees.get j} i := by
  rw [resolveRoot, h, ← busiest_eq_some_iff,
    ← find?_finRange_eq_some_iff (fun j => (g.vertices.get j).depth = some 0)]
  cases hfound : (List.finRange g.size).find? fun j => (g.vertices.get j).depth = some 0 with
  | some j =>
    have hj : (g.vertices.get j).depth = some 0 := by simpa using List.find?_some hfound
    exact ⟨Or.inl, fun h => h.resolve_right fun hnone => hnone.1 j hj⟩
  | none =>
    have hnone : ∀ j, (g.vertices.get j).depth ≠ some 0 := by simpa using hfound
    simp [hnone]

/-- The root is the configured node if it is there. Otherwise it is the first node with a supplied depth of 0, and if
there is none, the first of those with the most links to other nodes, where repeated links of the payload count once.
There is a root, and it is the number of a node, unless there are no nodes. -/
theorem resolveRoot_follows_precedence :
    (∀ (g : CallGraph) (configured : Option String),
      (∀ i, g.resolveRoot configured = some i ↔
        (∃ id, configured = some id ∧ g.indexOf id = some i) ∨
          (∀ id, configured = some id → g.indexOf id = none) ∧
            (IsLeast {j | (g.vertices.get j).depth = some 0} i ∨
              (∀ j, (g.vertices.get j).depth ≠ some 0) ∧
                IsLeast {j | ∀ k, g.outDegrees.get k ≤ g.outDegrees.get j} i)) ∧
      (g.resolveRoot configured = none ↔ g.size = 0) ∧
      ∀ number ∈ (g.resolveRoot configured).map Fin.val, number < g.size) ∧
    (∀ (g : CallGraph) (i : Fin g.size),
      g.outDegrees.get i = g.links.countP fun l => l.source = i ∧ l.target ≠ i) ∧
    ∀ (graph : GraphSpec) (i : Fin (ofSpec graph).size),
      (ofSpec graph).outDegrees.get i = (linkedFrom graph i).ncard := by
  refine ⟨fun g configured => ⟨fun i => ?_, g.resolveRoot_eq_none_iff configured, fun number hnumber => ?_⟩,
    outDegrees_eq_countP, ofSpec_outDegrees⟩
  · cases h : configured.bind g.indexOf with
    | some r =>
      obtain ⟨id, rfl, hid⟩ := Option.bind_eq_some_iff.mp h
      rw [g.resolveRoot_of_configured h]
      simp [hid]
    | none =>
      have habsent := Option.bind_eq_none_iff.mp h
      rw [g.resolveRoot_of_not_configured h]
      constructor
      · exact fun hi => Or.inr ⟨habsent, hi⟩
      · rintro (⟨id, hid, hfound⟩ | ⟨-, hi⟩)
        · rw [habsent id hid] at hfound
          cases hfound
        · exact hi
  · obtain ⟨i, -, rfl⟩ := Option.mem_map.mp hnumber
    exact i.isLt

end CallAtlas.CallGraph
