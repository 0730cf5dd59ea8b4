import CallAtlas.Layout.Root
import CallAtlas.Proofs.Graph.Distance

/-! Rings are distances from the root, where no depth is supplied.

`KnownRing` says which ring a node has on its own account: the supplied one, or else its distance from the root in the
graph of all proper links, those at nodes with a supplied depth included. All other nodes share one ring beyond. -/

namespace CallAtlas.CallGraph

set_option autoImplicit false

/-- The ring of a node by its supplied depth, or else by its distance from the root. -/
def KnownRing (g : CallGraph) (root : Option (Fin g.size)) (i : Fin g.size) (ring : ℕ) : Prop :=
  (g.vertices.get i).depth = some ring ∨
    (g.vertices.get i).depth = none ∧
      ∃ r, root = some r ∧ g.undirected.Reachable r i ∧ g.undirected.dist r i = ring

variable (g : CallGraph) (root : Option (Fin g.size))

theorem ring?_eq_some_iff (i : Fin g.size) (ring : ℕ) :
    g.ring? ((root.map g.visitsFrom).getD []) i = some ring ↔ g.KnownRing root i ring := by
  unfold ring? KnownRing
  cases hdepth : (g.vertices.get i).depth with
  | some depth => simp
  | none =>
    cases root with
    | none => simp
    | some r => simpa using g.level_visitsFrom_iff r i ring

theorem ring?_eq_none_iff (i : Fin g.size) :
    g.ring? ((root.map g.visitsFrom).getD []) i = none ↔ ∀ ring, ¬ g.KnownRing root i ring := by
  rw [Option.eq_none_iff_forall_ne_some]
  exact forall_congr' fun ring => not_congr (g.ring?_eq_some_iff root i ring)

theorem mem_rings_iff (ring : ℕ) :
    ring ∈ (List.finRange g.size).filterMap (g.ring? ((root.map g.visitsFrom).getD [])) ↔
      ∃ j, g.KnownRing root j ring := by
  rw [List.mem_filterMap]
  refine exists_congr fun j => ?_
  rw [ring?_eq_some_iff, and_iff_right (List.mem_finRange j)]

theorem resolveDepths_of_known {i : Fin g.size} {ring : ℕ} (h : g.KnownRing root i ring) :
    (g.resolveDepths root).get i = ring := by
  rw [resolveDepths, Vector.get_ofFn, (g.ring?_eq_some_iff root i ring).mpr h]
  rfl

/-- A node without a ring of its own goes beyond the largest ring there is, as far as numbers of rings go. -/
theorem resolveDepths_of_unknown {i : Fin g.size} (h : ∀ ring, ¬ g.KnownRing root i ring) :
    ({ring | ∃ j, g.KnownRing root j ring} = ∅ ∧ (g.resolveDepths root).get i = 0) ∨
      ∃ deepest, IsGreatest {ring | ∃ j, g.KnownRing root j ring} deepest ∧
        (g.resolveDepths root).get i = min (deepest + 1) lastRing := by
  rw [resolveDepths, Vector.get_ofFn, (g.ring?_eq_none_iff root i).mpr h]
  cases hmax : ((List.finRange g.size).filterMap (g.ring? ((root.map g.visitsFrom).getD []))).max? with
  | none =>
    refine Or.inl ⟨Set.eq_empty_iff_forall_notMem.mpr fun ring hring => ?_, rfl⟩
    have hmem := (g.mem_rings_iff root ring).mpr hring
    rw [List.max?_eq_none_iff.mp hmax] at hmem
    cases hmem
  | some deepest =>
    obtain ⟨hmem, hgreatest⟩ := List.max?_eq_some_iff.mp hmax
    refine Or.inr ⟨deepest, ⟨(g.mem_rings_iff root deepest).mp hmem, fun ring hring => ?_⟩, rfl⟩
    exact hgreatest ring ((g.mem_rings_iff root ring).mpr hring)

/-- Every node gets its supplied depth. Without one it gets the length of a shortest way from the root, if there is a
way, and otherwise one more than the largest of all these, but not more than a number of 32 bits, or 0 if there are
none. -/
theorem resolveDepths_rings (i : Fin g.size) :
    (∀ depth, (g.vertices.get i).depth = some depth → (g.resolveDepths root).get i = depth) ∧
    ((g.vertices.get i).depth = none →
      (∀ r, root = some r → g.undirected.Reachable r i → (g.resolveDepths root).get i = g.undirected.dist r i) ∧
      ((∀ r, root = some r → ¬ g.undirected.Reachable r i) →
        ({ring | ∃ j, g.KnownRing root j ring} = ∅ ∧ (g.resolveDepths root).get i = 0) ∨
          ∃ deepest, IsGreatest {ring | ∃ j, g.KnownRing root j ring} deepest ∧
            (g.resolveDepths root).get i = min (deepest + 1) (2 ^ 32 - 1))) := by
  refine ⟨fun depth hdepth => g.resolveDepths_of_known root (Or.inl hdepth), fun hdepth => ⟨?_, fun hfar => ?_⟩⟩
  · exact fun r hroot hreach => g.resolveDepths_of_known root (Or.inr ⟨hdepth, r, hroot, hreach, rfl⟩)
  · refine g.resolveDepths_of_unknown root fun ring hknown => ?_
    rcases hknown with hsupplied | ⟨-, r, hroot, hreach, -⟩
    · rw [hdepth] at hsupplied
      cases hsupplied
    · exact hfar r hroot hreach

end CallAtlas.CallGraph
