import CallAtlas.Proofs.Engine.Loads
import CallAtlas.Proofs.Graph.Distance
import CallAtlas.Proofs.Layout.Precedence
import CallAtlas.Proofs.Physics.Regions

/-! No run of the engine comes to a fault.

The graph of an engine is always that of a payload (`Move.graphOfSpec`), so every number in it is that of a node which
the payload names (`CallGraph.NumbersFit`). All bounds that values are kept between are those of sanitized settings. -/

namespace CallAtlas

set_option autoImplicit false

/-! ## Numbers of nodes -/

namespace CallGraph

/-- A number at which the list of nodes has a node with the given id. -/
structure Numbers (g : CallGraph) (k : ℕ) (id : String) : Prop where
  inRange : k < g.size
  found : g.ids[k]? = some id

theorem numbers_fin (g : CallGraph) (i : Fin g.size) : g.Numbers i (g.vertices.get i).id := ⟨i.isLt, g.ids_getElem? i⟩

/-- Whatever number is taken from a graph is that of a node: the ends of a link and two neighbours are the nodes that a
link of the payload names, an id leads to its node, and a root is there unless there are no nodes. -/
structure NumbersFit (payload : GraphSpec) (g : CallGraph) : Prop where
  links : ∀ l ∈ g.links, ∃ spec ∈ payload.links, g.Numbers l.source spec.source ∧ g.Numbers l.target spec.target
  neighbours : ∀ i, ∀ j ∈ g.neighbours i, ∃ spec ∈ payload.links,
    g.Numbers i spec.source ∧ g.Numbers j spec.target ∨ g.Numbers j spec.source ∧ g.Numbers i spec.target
  degrees : g.degrees.toList.length = g.size
  indexOf : ∀ id i, g.indexOf id = some i → g.Numbers i id
  root : ∀ configured, g.size = 0 ∧ g.resolveRoot configured = none ∨
    ∃ r id, g.resolveRoot configured = some r ∧ g.Numbers r id

theorem ofSpec_numbersFit (payload : GraphSpec) : (ofSpec payload).NumbersFit payload := by
  have hlinks : ∀ i j : Fin (ofSpec payload).size, ⟨i, j⟩ ∈ (ofSpec payload).links → ∃ spec ∈ payload.links,
      (ofSpec payload).Numbers i spec.source ∧ (ofSpec payload).Numbers j spec.target := by
    intro i j hlink
    obtain ⟨spec, hspec, hsource, htarget⟩ := (mem_ofSpec_links payload i j).mp hlink
    exact ⟨spec, hspec, hsource ▸ numbers_fin _ i, htarget ▸ numbers_fin _ j⟩
  refine ⟨fun l hl => hlinks l.source l.target hl, fun i j hj => ?_, Vector.length_toList, fun id i hi => ?_,
    fun configured => ?_⟩
  · rcases ((mem_neighbours_iff _ i j).mp hj).2 with hlink | hlink
    · obtain ⟨spec, hspec, hnumbers⟩ := hlinks i j hlink
      exact ⟨spec, hspec, Or.inl hnumbers⟩
    · obtain ⟨spec, hspec, hnumbers⟩ := hlinks j i hlink
      exact ⟨spec, hspec, Or.inr hnumbers⟩
  · exact (ofSpec_indexOf payload id i).mp hi ▸ numbers_fin _ i
  · cases hroot : (ofSpec payload).resolveRoot configured with
    | none => exact Or.inl ⟨(resolveRoot_eq_none_iff _ configured).mp hroot, rfl⟩
    | some r => exact Or.inr ⟨r, _, rfl, numbers_fin _ r⟩

end CallGraph

theorem QuadTree.map_val_members_build {α : Type} [Scalar α] {n : ℕ} {positions : Vector (Vec α) n}
    {tree : QuadTree α n} (h : build positions = some tree) : (tree.members.map (·.val)).Perm (List.range n) := by
  have hperm := (members_build positions h).map (·.val)
  rwa [List.map_coe_finRange_eq_range] at hperm

namespace Engine

variable {α : Type} [Scalar α]

/-! ## Graphs along a run -/

theorem load_graph (graph : GraphSpec) (e : Engine α) : (e.load graph).model.graph = .ofSpec graph :=
  Arrangement.apply_graph _ _ _ _ _ _

omit [Scalar α] in
theorem foldl_release_graph (active : List (Drag α)) (m : Model α) :
    (active.foldl (fun m drag => Held.release drag.node m) m).graph = m.graph := by
  induction active generalizing m with
  | nil => rfl
  | cons drag rest ih => rw [List.foldl_cons, ih, Held.release, Model.modifyBody_graph]

theorem setLayout_graph (mode : LayoutMode) (e : Engine α) : (e.setLayout mode).model.graph = e.model.graph :=
  (Arrangement.apply_graph _ _ _ _ _ _).trans (foldl_release_graph _ _)

/-- The graph is that of some payload. -/
def GraphOfSpec (e : Engine α) : Prop := ∃ payload, e.model.graph = .ofSpec payload

theorem ofSettings_graphOfSpec (settings : Settings α) : (ofSettings settings).GraphOfSpec := by
  refine ⟨⟨[], []⟩, ?_⟩
  change CallGraph.empty = _
  simp [CallGraph.empty, CallGraph.ofSpec, Roster.empty, Roster.numbers, CallGraph.resolveLinks, CallGraph.dropRepeats]

theorem Move.graphOfSpec {e e' : Engine α} (hmove : Move e e') (h : e.GraphOfSpec) : e'.GraphOfSpec := by
  cases hmove with
  | load graph => exact ⟨graph, load_graph graph e⟩
  | setLayout mode =>
    obtain ⟨payload, hgraph⟩ := h
    exact ⟨payload, (setLayout_graph mode e).trans hgraph⟩
  | change hchange =>
    obtain ⟨payload, hgraph⟩ := h
    exact ⟨payload, hchange.graph.trans hgraph⟩

/-! ## Bounds along a run -/

theorem Coherent.alphaTarget_kept {e : Engine Float32} (h : e.Coherent) :
    Scalar.Kept 0.0 1.0 e.simulation.alphaTarget := by
  change Scalar.Kept 0.0 1.0 e.held.simulation.alphaTarget
  by_cases hcool : e.drags.active = [] ∨ e.mode.isSimulated = false
  · rw [h.cool hcool, ← clamp_unit_zero]
    exact clamp_unit_kept 0.0
  · obtain ⟨hactive, hmode⟩ := not_or.mp hcool
    rw [h.warm hactive (Bool.eq_true_of_not_eq_false hmode)]
    exact clamp_unit_kept _

/-- Every run returns. In the engine that it leaves, all numbers of nodes are those of nodes and all bounds that values
are kept between are in order. -/
theorem run_never_faults (settings : Settings Float32) (ops : List (Operation Float32)) :
    ∃ e replies payload, (ofSettings settings).run ops = .ok (e, replies) ∧
      e.model.graph = .ofSpec payload ∧ e.model.graph.NumbersFit payload ∧
      (∀ (positions : Vector (Vec Float32) e.model.size) (tree : QuadTree Float32 e.model.size),
        QuadTree.build positions = some tree → (tree.members.map (·.val)).Perm (List.range e.model.size)) ∧
      (∀ drag ∈ e.drags.active, ∃ id, e.model.graph.Numbers drag.node id) ∧
      (∀ screen node, e.nodeAt screen = some node → ∃ id, e.model.graph.Numbers node id) ∧
      e.settings.Clamped ∧ Scalar.Kept 0.0 1.0 e.simulation.alphaTarget ∧
      0.0 < e.viewport.minScale ∧ e.viewport.minScale ≤ e.viewport.maxScale := by
  have hstart : (ofSettings settings).viewport.InOrder := ofSettings_inOrder (by decide) settings
  obtain ⟨e, replies, hrun, hmoves⟩ := run_moves ops (ofSettings settings) hstart
  obtain ⟨payload, hgraph⟩ := preserved_along GraphOfSpec Move.graphOfSpec hmoves (ofSettings_graphOfSpec settings)
  have hcoherent : e.Coherent :=
    preserved_along Coherent (Move.coherent clamp_unit_zero) hmoves (ofSettings_coherent settings)
  have hsettings : e.settings = settings.sanitized :=
    preserved_along (·.settings = _) (fun hmove he => hmove.settings.trans he) hmoves rfl
  have hmin : e.viewport.minScale = settings.sanitized.viewport.minScale :=
    (run_configured hrun).minScale.trans (by rw [hsettings])
  refine ⟨e, replies, payload, hrun, hgraph, hgraph ▸ CallGraph.ofSpec_numbersFit payload,
    fun positions tree htree => QuadTree.map_val_members_build htree, fun drag hdrag => ?_,
    fun screen node hnode => ?_, ?_, hcoherent.alphaTarget_kept, ?_, ?_⟩
  · have hnode : drag.node < e.model.graph.size := hcoherent.inRange drag.node (List.mem_map_of_mem hdrag)
    exact ⟨_, e.model.graph.numbers_fin ⟨drag.node, hnode⟩⟩
  · obtain ⟨i, _, rfl⟩ := Option.map_eq_some_iff.mp hnode
    exact ⟨_, e.model.graph.numbers_fin i⟩
  · rw [hsettings]
    exact settings.sanitized_clamped
  · rw [hmin]
    exact settings.viewport.sanitized_minScale_pos (by decide)
  · exact preserved_along (·.viewport.InOrder) Move.inOrder hmoves hstart

end Engine

end CallAtlas
