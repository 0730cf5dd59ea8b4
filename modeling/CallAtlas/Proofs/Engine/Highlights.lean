import CallAtlas.Proofs.Engine.Look
import CallAtlas.Proofs.Engine.Safety
import CallAtlas.Proofs.Search.Matches

/-! The matches of a search are never out of date.

`Search.matched` is kept beside the query it was computed for. `step_search` says what one operation makes of both, and
`run_highlights_current` what follows for every run: the query is that of the latest search, the matches are the ids of
the present graph that contain it in lower case, and a frame highlights the nodes with these ids and no others. -/

namespace CallAtlas

set_option autoImplicit false

variable {α : Type}

/-! ## Searches along a run -/

namespace Engine

/-- The query that a run leaves: that of the latest search, unless it is blank. -/
def latestQuery (ops : List (Operation α)) : String :=
  match (ops.filterMap Operation.query?).getLast? with
  | some query => if Text.isBlankText query then "" else query
  | none => ""

theorem latestQuery_append_search (ops : List (Operation α)) (query : String) :
    latestQuery (ops ++ [.search query]) = if Text.isBlankText query then "" else query := by
  simp [latestQuery, Operation.query?]

theorem latestQuery_append_other (ops : List (Operation α)) (op : Operation α) (h : op.query? = none) :
    latestQuery (ops ++ [op]) = latestQuery ops := by
  simp [latestQuery, h]

variable [Scalar α]

theorem step_keeps_search {e e' : Engine α} (he : e.viewport.InOrder) {op : Operation α} {reply : Reply α}
    (hlays : op.laysOut = false) (hquery : op.query? = none) (hstep : e.step op = .ok (e', reply)) :
    e'.search = e.search := by
  by_cases hlooks : op.looks = true
  · obtain ⟨l, reply', hl, hsearch⟩ := e.step_of_looks he op hlooks
    rw [hstep] at hl
    cases hl
    exact hsearch hquery
  by_cases hdrags : op.drags = true
  · cases op with
    | beginDrag screen =>
      cases hstep
      split
      · split <;> rfl
      · rfl
    | dragTo node screen => cases hstep; rfl
    | endDrag node => cases hstep; rfl
    | _ => exact absurd hdrags (by simp [Operation.drags])
  · rw [Bool.not_eq_true] at hlooks hdrags
    obtain ⟨e₁, reply₁, l, hstep₁, hstep₂, hl⟩ := e.step_withLook op hlooks hdrags e.look
    rw [withLook_look, hstep] at hstep₂
    rw [hl hlays] at hstep₂
    cases hstep₂
    rfl

/-- What one operation makes of query and matches: a search starts over, a load searches the new graph, and all else
leaves query, matches and graph alone. -/
theorem step_search {e e' : Engine α} (he : e.viewport.InOrder) {op : Operation α} {reply : Reply α}
    (hstep : e.step op = .ok (e', reply)) :
    (∃ query, op = .search query ∧ e'.search = .start e'.model.graph query) ∨
      op.query? = none ∧
        (e'.search = e.search.refresh e'.model.graph ∨ e'.search = e.search ∧ e'.model.graph = e.model.graph) := by
  by_cases hlays : op.laysOut = true
  · cases op with
    | load graph =>
      cases hstep
      refine Or.inr ⟨rfl, Or.inl ?_⟩
      rw [load_graph]
      rfl
    | setLayout mode =>
      cases hstep
      exact Or.inr ⟨rfl, Or.inr ⟨rfl, setLayout_graph mode e⟩⟩
    | _ => exact absurd hlays (by simp [Operation.laysOut])
  · rw [Bool.not_eq_true] at hlays
    have hgraph : e'.model.graph = e.model.graph :=
      preserved_along (·.model.graph = _) (fun hchange h => hchange.graph.trans h) (changes_of_step he hlays hstep) rfl
    cases hquery : op.query? with
    | none => exact Or.inr ⟨rfl, Or.inr ⟨step_keeps_search he hlays hquery hstep, hgraph⟩⟩
    | some query =>
      cases op with
      | search _ =>
        cases hstep
        exact Or.inl ⟨_, rfl, rfl⟩
      | _ => exact absurd hquery (by simp [Operation.query?])

/-- The query is the latest one, and the matches are those of the present graph. -/
structure UpToDate (ops : List (Operation α)) (e : Engine α) : Prop where
  query : e.search.query = latestQuery ops
  matched : e.search.matched = Search.matchesIn e.model.graph e.search.query

theorem UpToDate.step {ops : List (Operation α)} {e e' : Engine α} (h : e.UpToDate ops) (he : e.viewport.InOrder)
    {op : Operation α} {reply : Reply α} (hstep : e.step op = .ok (e', reply)) : e'.UpToDate (ops ++ [op]) := by
  rcases step_search he hstep with ⟨query, rfl, hsearch⟩ | ⟨hquery, hsearch | ⟨hsearch, hgraph⟩⟩
  · refine ⟨?_, ?_⟩
    · rw [latestQuery_append_search, hsearch]
      rfl
    · rw [hsearch]
      rfl
  · refine ⟨?_, ?_⟩
    · rw [latestQuery_append_other ops op hquery, ← h.query, hsearch]
      rfl
    · rw [hsearch]
      rfl
  · refine ⟨?_, ?_⟩
    · rw [latestQuery_append_other ops op hquery, ← h.query, hsearch]
    · rw [hsearch, hgraph, h.matched]

theorem run_upToDate {e e' : Engine α} (he : e.viewport.InOrder) (hstart : e.UpToDate []) {ops : List (Operation α)}
    {replies : List (Reply α)} (hrun : e.run ops = .ok (e', replies)) : e'.UpToDate ops := by
  refine (run_history (fun past _ met => met.UpToDate past ∧ met.viewport.InOrder) ⟨hstart, he⟩ ?_ hrun).1
  rintro past replies met met' op reply - ⟨h, hmet⟩ hstep
  exact ⟨h.step hmet hstep, step_inOrder hmet hstep⟩

end Engine

/-! ## Frames -/

/-- Where a mark shows a node, and whether it highlights it. -/
def Mark.node? : Mark α → Option (Vec α × Bool)
  | .node center _ _ highlighted => some (center, highlighted)
  | _ => none

namespace Engine

theorem marks_node? [Scalar α] (e : Engine α) :
    e.marks.filterMap Mark.node? = (List.finRange e.model.graph.size).map fun i =>
      (e.transform.apply (e.model.bodies.get i).pos, e.search.isMatch (e.model.graph.vertices.get i).id) := by
  unfold marks Painting.marks
  simp [List.filterMap_map, Function.comp_def, Mark.node?]

/-- After every run the query is that of the latest search, the matches are the ids of the present graph that contain
it in lower case, and a frame highlights the nodes with these ids and no others. -/
theorem run_highlights_current (settings : Settings Float32) (ops : List (Operation Float32)) :
    ∃ e replies marks, (ofSettings settings).run ops = .ok (e, replies) ∧ e.step .render = .ok (e, .marks marks) ∧
      e.search.query = latestQuery ops ∧ (e.search.query = "" → e.search.matched = []) ∧ e.search.matched.Nodup ∧
      (∀ id, id ∈ e.search.matched ↔
        id ∈ e.model.graph.ids ∧ e.search.query ≠ "" ∧ Text.lowercase e.search.query <:+: Text.lowercase id) ∧
      marks.filterMap Mark.node? = (List.finRange e.model.graph.size).map fun i =>
        (e.transform.apply (e.model.bodies.get i).pos,
          decide ((e.model.graph.vertices.get i).id ∈ e.search.matched)) := by
  have hstart : (ofSettings settings).viewport.InOrder := ofSettings_inOrder (by decide) settings
  obtain ⟨e, replies, hrun, hmoves⟩ := run_moves ops (ofSettings settings) hstart
  obtain ⟨payload, hgraph⟩ := preserved_along GraphOfSpec Move.graphOfSpec hmoves (ofSettings_graphOfSpec settings)
  have hids : e.model.graph.ids.Nodup := hgraph ▸ CallGraph.ofSpec_ids_nodup payload
  have hdate : e.UpToDate ops := run_upToDate hstart ⟨rfl, rfl⟩ hrun
  refine ⟨e, replies, e.marks, hrun, rfl, hdate.query, fun hempty => ?_, ?_, fun id => ?_, ?_⟩
  · rw [hdate.matched, hempty]
    rfl
  · rw [hdate.matched]
    exact Search.matchesIn_nodup _ _ hids
  · rw [hdate.matched]
    exact Search.mem_matchesIn _ _ id
  · rw [marks_node?]
    simp only [Search.isMatch, List.contains_eq_mem]

example :
    ((ofSettings (.standard : Settings Float32)).run
        [.search "A ", .load ⟨[.ofId "a b", .ofId "ab"], []⟩, .search "Ab", .setLayout .radial]).toOption.map
      (fun result => (result.1.search.query, result.1.search.matched, result.1.marks.filterMap fun mark =>
        mark.node?.map (·.2))) = some ("Ab", ["ab"], [false, true]) := by
  decide +kernel

end Engine

end CallAtlas
