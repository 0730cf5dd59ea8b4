import CallAtlas.Proofs.Viewer.Run

/-! When selecting a node shows its details.

A node that is selected already is left as it is, so selecting it shows nothing if it is `Bare`: selected while no panel
is open for it. No act brings that about (`Act.bare`), since a new selection opens a panel. Closing does, where it takes
the panel of the selected node and leaves another one (`bare_close`): only the last panel takes the selection along. -/

namespace CallAtlas

set_option autoImplicit false

theorem NodeSpec.details_id {spec : NodeSpec} {d : NodeDetails} (h : spec.details = some d) : d.id = spec.id := by
  unfold NodeSpec.details at h
  dsimp only at h
  split at h
  · cases h
  · cases h
    rfl

theorem CallGraph.ofSpec_details_id {payload : GraphSpec} {id : String} {d : NodeDetails}
    (h : (ofSpec payload).details id = some d) : d.id = id := by
  rw [ofSpec_details] at h
  obtain ⟨spec, hspec, hd⟩ := Option.bind_eq_some_iff.mp h
  have hid : spec.id = id := by simpa using List.find?_some hspec
  rw [NodeSpec.details_id hd, hid]

namespace Viewer

variable {α : Type} [Scalar α]

/-- A node is selected, and no panel is open for it. -/
def Bare (v : Viewer α) (id : String) : Prop := v.selected = some id ∧ v.isShown id = false

omit [Scalar α] in
theorem isShown_iff (v : Viewer α) (id : String) :
    v.isShown id = true ↔ ∃ p ∈ v.panels, p.isOpen = true ∧ p.title = id := by
  simp [isShown]

/-! ## Selecting -/

theorem openPanel_isShown {v : Viewer α} (hgraph : v.engine.GraphOfSpec) {id : String}
    (hid : (v.engine.model.graph.details id).isSome) : (v.openPanel id).isShown id = true := by
  obtain ⟨payload, hpayload⟩ := hgraph
  obtain ⟨d, hd⟩ := Option.isSome_iff_exists.mp hid
  have htitle : d.id = id := CallGraph.ofSpec_details_id (hpayload ▸ hd)
  unfold openPanel
  split
  · assumption
  · rw [hd]
    rw [isShown_iff]
    exact ⟨⟨d, _, true⟩, List.mem_append_right _ List.mem_cons_self, rfl, htitle⟩

theorem select_isShown_iff {v : Viewer α} (hgraph : v.engine.GraphOfSpec) {id : String}
    (hid : (v.engine.model.graph.details id).isSome) : (v.select (some id)).isShown id = true ↔ ¬ v.Bare id := by
  by_cases hsame : v.selected = some id
  · rw [select, if_pos hsame, Bare]
    simp [hsame]
  · rw [select, if_neg hsame, Bare]
    exact iff_of_true (openPanel_isShown (v := { v with selected := some id }) hgraph hid) fun h => hsame h.1

/-! ## Acts and the hand -/

theorem Act.bare {v v' : Viewer α} (hact : Act v v') (hgraph : v.engine.GraphOfSpec) {id : String}
    (hid : (v.engine.model.graph.details id).isSome) (hbare : v'.Bare id) : v.Bare id := by
  have hselect : ∀ choice, (v.select choice).Bare id → v.Bare id := by
    intro choice h
    have hchoice : choice = some id := (select_selected choice v).symm.trans h.1
    subst hchoice
    by_contra hnot
    have hshown := (select_isShown_iff hgraph hid).mpr hnot
    rw [h.2] at hshown
    exact Bool.false_ne_true hshown
  cases hact with
  | goTo _ => exact hselect _ hbare
  | click point => exact hselect _ hbare
  | _ => exact hbare

/-- The pointer on the canvas changes what is in the hand and nothing else. -/
theorem hold_frame (canvas : Rect α) (g : Gesture α) (v : Viewer α) :
    ∃ held dragging, v.hold canvas g = { v with engine := v.engine.withHeld held, dragging := dragging } := by
  have hgrab : ∃ held dragging,
      v.grab canvas g = { v with engine := v.engine.withHeld held, dragging := dragging } := by
    unfold grab
    split
    · split
      · next point _ =>
        obtain ⟨held, hframe⟩ := v.engine.beginDrag_frame (point - canvas.min)
        refine ⟨held, (v.engine.beginDrag (point - canvas.min)).2, ?_⟩
        rw [← hframe]
      · exact ⟨v.engine.held, v.dragging, rfl⟩
    · exact ⟨v.engine.held, v.dragging, rfl⟩
  obtain ⟨held, dragging, h⟩ := hgrab
  rw [hold, h]
  unfold carry
  split
  · exact ⟨held, dragging, rfl⟩
  · split
    · exact ⟨_, none, rfl⟩
    · split
      · exact ⟨_, dragging, rfl⟩
      · exact ⟨held, dragging, rfl⟩

theorem Worked.bare {input : FrameInput α} {v w : Viewer α} (hworked : Worked input v w)
    (hgraph : v.engine.GraphOfSpec) {id : String} (hid : (v.engine.model.graph.details id).isSome)
    (hbare : w.Bare id) : v.Bare id := by
  refine (hworked.preserves
    (P := fun u => u.engine.model.graph = v.engine.model.graph ∧ (u.Bare id → v.Bare id))
    ?_ ?_ ⟨rfl, fun h => h⟩).2 hbare
  · rintro u u' hact ⟨hsame, hu⟩
    refine ⟨hact.graph.trans hsame, fun h => hu (hact.bare ?_ ?_ h)⟩
    · rw [Engine.GraphOfSpec, hsame]
      exact hgraph
    · rw [hsame]
      exact hid
  · rintro canvas - u ⟨hsame, hu⟩
    refine ⟨(changes_graph (u.hold_changes _ _)).trans hsame, fun h => hu ?_⟩
    obtain ⟨held, dragging, hframe⟩ := u.hold_frame canvas.rect canvas.gesture
    rw [hframe] at h
    exact h

/-! ## Closing -/

omit [Scalar α] in
theorem foldl_closePanel_getElem? (closed : List ℕ) (v : Viewer α) (k : ℕ) :
    (closed.foldl (fun v i => v.closePanel i) v).panels[k]? =
      v.panels[k]?.map fun p => if k ∈ closed then { p with isOpen := false } else p := by
  induction closed generalizing v with
  | nil => simp
  | cons i rest ih =>
    rw [List.foldl_cons, ih, closePanel, List.getElem?_modify]
    cases v.panels[k]? with
    | none => rfl
    | some p =>
      by_cases hi : i = k
      · simp [hi]
      · simp [hi, Ne.symm hi]

omit [Scalar α] in
theorem mem_close_panels (closed : List ℕ) (v : Viewer α) (p : Panel α) :
    p ∈ (v.close closed).panels ↔ p.isOpen = true ∧ ∃ k, v.panels[k]? = some p ∧ k ∉ closed := by
  rw [close, dropClosed, List.mem_filter, List.mem_iff_getElem?]
  simp only [foldl_closePanel_getElem?, Option.map_eq_some_iff]
  constructor
  · rintro ⟨⟨k, q, hq, rfl⟩, hopen⟩
    split at hopen
    · exact absurd hopen Bool.false_ne_true
    · next hk =>
      rw [if_neg hk]
      exact ⟨hopen, k, hq, hk⟩
  · rintro ⟨hopen, k, hq, hk⟩
    exact ⟨⟨k, p, hq, if_neg hk⟩, hopen⟩

omit [Scalar α] in
/-- The selection goes with the last panel only. -/
theorem close_selected_iff (closed : List ℕ) (v : Viewer α) (id : String) :
    (v.close closed).selected = some id ↔ v.selected = some id ∧ ((v.close closed).panels = [] → v.panels = []) := by
  obtain ⟨panels, hclosed, hlength⟩ := v.foldl_closePanel closed
  have hempty : panels = [] ↔ v.panels = [] := by
    rw [← List.length_eq_zero_iff, hlength, List.length_eq_zero_iff]
  rw [close, hclosed, dropClosed, ← hempty]
  by_cases hleft : panels.filter (·.isOpen) = [] <;> by_cases hpanels : panels = [] <;> simp [hleft, hpanels]

/-- The panel of the selected node is closed, and another panel stays. -/
structure ClosesBeside (closed : List ℕ) (v : Viewer α) (id : String) : Prop where
  selected : v.selected = some id
  shown : v.isShown id = true
  gone : ∀ k p, v.panels[k]? = some p → p.isOpen = true → p.title = id → k ∈ closed
  stays : ∃ k p, v.panels[k]? = some p ∧ p.isOpen = true ∧ k ∉ closed

omit [Scalar α] in
theorem bare_close {closed : List ℕ} {v : Viewer α} {id : String} (hbare : (v.close closed).Bare id) :
    v.Bare id ∨ v.ClosesBeside closed id := by
  obtain ⟨hselected, hshown⟩ := hbare
  obtain ⟨hbefore, hlast⟩ := (close_selected_iff closed v id).mp hselected
  have hgone : ∀ k p, v.panels[k]? = some p → p.isOpen = true → p.title = id → k ∈ closed := by
    intro k p hp hopen htitle
    by_contra hk
    have : (v.close closed).isShown id = true :=
      (isShown_iff _ id).mpr ⟨p, (mem_close_panels closed v p).mpr ⟨hopen, k, hp, hk⟩, hopen, htitle⟩
    rw [hshown] at this
    exact Bool.false_ne_true this
  cases hopen : v.isShown id with
  | false => exact Or.inl ⟨hbefore, hopen⟩
  | true =>
    -- A panel was there, so one is left: otherwise the selection would have gone with the last one.
    obtain ⟨p, hp, _⟩ := (v.isShown_iff id).mp hopen
    obtain ⟨q, hq⟩ := List.exists_mem_of_ne_nil _ fun hnil => List.ne_nil_of_mem hp (hlast hnil)
    obtain ⟨hqopen, k, hk, hstays⟩ := (mem_close_panels closed v q).mp hq
    exact Or.inr ⟨hbefore, hopen, hgone, k, q, hk, hqopen, hstays⟩

/-! ## Runs -/

theorem run_concat {start v v' : Viewer α} {past : List (ViewerEvent α)} {event : ViewerEvent α}
    (hpast : start.run past = .ok v) (hstep : v.step event = .ok v') : start.run (past ++ [event]) = .ok v' := by
  rw [run, List.foldlM_append, ← run, hpast]
  simp [bind, Except.bind, hstep, pure, Except.pure]

/-- In a frame of the run the panel of a node, which was selected, was closed beside another one, and the node has been
selected without a panel ever since. -/
def ClosedBesideSince (start : Viewer α) (events : List (ViewerEvent α)) (id : String) : Prop :=
  ∃ before input after met w, events = before ++ .frame input :: after ∧
    start.run before = .ok met ∧ met.work input = .ok w ∧ w.ClosesBeside input.closed id ∧
    ∀ later, later <+: after → ∃ v, start.run (before ++ .frame input :: later) = .ok v ∧ v.Bare id

theorem ClosedBesideSince.concat {start v : Viewer α} {past : List (ViewerEvent α)} {event : ViewerEvent α}
    {id : String} (h : start.ClosedBesideSince past id) (hrun : start.run (past ++ [event]) = .ok v)
    (hbare : v.Bare id) : start.ClosedBesideSince (past ++ [event]) id := by
  obtain ⟨before, input, after, met, w, rfl, hmet, hw, hcloses, hsince⟩ := h
  refine ⟨before, input, after ++ [event], met, w, by simp, hmet, hw, hcloses, fun later hlater => ?_⟩
  rcases List.prefix_concat_iff.mp hlater with rfl | hlater
  · exact ⟨v, by simpa using hrun, hbare⟩
  · exact hsince later hlater

/-- After every run of frames and reloads, selecting a node that has details leaves an open panel for it, unless its
panel was closed beside another one and the node has been selected without a panel ever since. -/
theorem run_select_shows_panel_iff (startup : Startup Float32) (graph : GraphSpec)
    (events : List (ViewerEvent Float32)) :
    ∃ v, (start startup graph).run events = .ok v ∧
      ∀ id, (v.engine.model.graph.details id).isSome →
        ((v.select (some id)).isShown id = true ↔ ¬ (start startup graph).ClosedBesideSince events id) := by
  have hsettings := Engine.ofSettings_inOrder (by decide) startup.settings
  have hstart := start_moves startup graph
  obtain ⟨v, hrun, -, hgraph, hcause⟩ := run_history (moves_inOrder hstart hsettings)
    (fun past v => v.engine.GraphOfSpec ∧ ∀ id, (v.engine.model.graph.details id).isSome → v.Bare id →
      (start startup graph).ClosedBesideSince past id)
    ⟨⟨graph, Engine.load_graph graph _⟩, fun id _ hbare => absurd hbare.1 nofun⟩
    (fun {past v w input} hpast hv hwork hworked => by
      obtain ⟨hgraph, hcause⟩ := hv
      have hframe : v.step (.frame input) = .ok (w.close input.closed) := by
        rw [step, frame_eq, hwork]
        rfl
      have hrun := run_concat hpast hframe
      refine ⟨?_, fun id hid hbare => ?_⟩
      · rw [Engine.GraphOfSpec, close_engine, hworked.graph]
        exact hgraph
      · rw [close_engine, hworked.graph] at hid
        rcases bare_close hbare with hbefore | hcloses
        · exact (hcause id hid (hworked.bare hgraph hid hbefore)).concat hrun hbare
        · refine ⟨past, input, [], v, w, rfl, hpast, hwork, hcloses, fun later hlater => ?_⟩
          rw [List.prefix_nil.mp hlater]
          exact ⟨_, hrun, hbare⟩)
    (fun graph _ _ => ⟨⟨graph, Engine.load_graph graph _⟩, fun id _ hbare => absurd hbare.1 nofun⟩) events
  refine ⟨v, hrun, fun id hid => ?_⟩
  rw [select_isShown_iff hgraph hid, not_iff_not]
  refine ⟨hcause id hid, ?_⟩
  rintro ⟨before, input, after, met, w, rfl, -, -, -, hsince⟩
  obtain ⟨v', hrun', hbare⟩ := hsince after List.prefix_rfl
  rw [hrun, Except.ok.injEq] at hrun'
  exact hrun' ▸ hbare

/-- A frame with a gesture on the canvas. -/
def gestureFrame (gesture : Gesture Float32) (closed : List ℕ) : ViewerEvent Float32 :=
  .frame ⟨[], some ⟨⟨.zero, ⟨960.0, 640.0⟩⟩, gesture, 0.0⟩, closed⟩

/-- Two nodes are clicked one after the other, and the panel of the second is closed. Selecting that node again shows
nothing, and neither does one more click on it. -/
theorem reselected_node_stays_hidden :
    let node := fun id => (NodeSpec.ofId id).withDetail "code" "return"
    let click := fun point => gestureFrame (.clickAt point) []
    let events := [click ⟨420.0, 320.0⟩, click ⟨540.0, 320.0⟩, gestureFrame .none [1]]
    ∃ v v', (start ⟨"", .standard, .hierarchical, "complexity"⟩ ⟨[node "a", node "b"], []⟩).run events = .ok v ∧
      (v.engine.model.graph.details "b").isSome = true ∧ (v.select (some "b")).isShown "b" = false ∧
      v.idAt ⟨540.0, 320.0⟩ = some "b" ∧ v.step (click ⟨540.0, 320.0⟩) = .ok v' ∧ v'.isShown "b" = false := by
  intro node click events
  have hall : ((start ⟨"", .standard, .hierarchical, "complexity"⟩ ⟨[node "a", node "b"], []⟩).run events).toOption.bind
      (fun v => (v.step (click ⟨540.0, 320.0⟩)).toOption.map fun v' =>
        ((v.engine.model.graph.details "b").isSome, (v.select (some "b")).isShown "b", v.idAt ⟨540.0, 320.0⟩,
          v'.isShown "b")) = some (true, false, some "b", false) := by decide +kernel
  have hok : ∀ {x : Except Fault (Viewer Float32)} {v : Viewer Float32}, x.toOption = some v → x = .ok v := by
    intro x v h
    cases x with
    | error fault => cases h
    | ok w => exact congrArg _ (Option.some.inj h)
  obtain ⟨v, hrun, hclick⟩ := Option.bind_eq_some_iff.mp hall
  obtain ⟨v', hstep, hanswers⟩ := Option.map_eq_some_iff.mp hclick
  simp only [Prod.mk.injEq] at hanswers
  obtain ⟨hdetails, hselect, hpoint, hhidden⟩ := hanswers
  exact ⟨v, v', hok hrun, hdetails, hselect, hpoint, hok hstep, hhidden⟩

end Viewer

end CallAtlas
