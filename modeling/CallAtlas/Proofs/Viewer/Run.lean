import CallAtlas.Proofs.Engine.Look
import CallAtlas.Proofs.Engine.Safety
import CallAtlas.Proofs.History
import CallAtlas.Viewer.Frame

/-! What frames of the viewer are made of.

* `Act v v'`: the single things that controls, clicks and time do to a viewer. Taking and carrying a node apart, a
  frame does nothing else until its windows are closed (`work_worked`), so that a property of all viewers along a frame
  needs one lemma for each act and one for the hand (`Worked.preserves`).
* `run_history`: the same for runs of frames and reloads. -/

namespace CallAtlas

set_option autoImplicit false

namespace Viewer

variable {α : Type} [Scalar α]

/-! ## Selecting -/

theorem openPanel_eq (id : String) (v : Viewer α) :
    ∃ cascade panels, v.openPanel id = { v with cascade := cascade, panels := panels } := by
  unfold openPanel
  split
  · exact ⟨v.cascade, v.panels, rfl⟩
  · split
    · exact ⟨_, _, rfl⟩
    · exact ⟨v.cascade, v.panels, rfl⟩

/-- What is selected is selected, and apart from it only panels may be new. -/
theorem select_eq (id : Option String) (v : Viewer α) :
    ∃ cascade panels, v.select id = { v with selected := id, cascade := cascade, panels := panels } := by
  unfold select
  split
  · next h => exact ⟨v.cascade, v.panels, h ▸ rfl⟩
  · cases id with
    | none => exact ⟨v.cascade, v.panels, rfl⟩
    | some id => exact openPanel_eq id { v with selected := some id }

@[simp] theorem select_engine (id : Option String) (v : Viewer α) : (v.select id).engine = v.engine := by
  obtain ⟨_, _, h⟩ := v.select_eq id
  rw [h]

@[simp] theorem select_dragging (id : Option String) (v : Viewer α) : (v.select id).dragging = v.dragging := by
  obtain ⟨_, _, h⟩ := v.select_eq id
  rw [h]

@[simp] theorem select_selected (id : Option String) (v : Viewer α) : (v.select id).selected = id := by
  obtain ⟨_, _, h⟩ := v.select_eq id
  rw [h]

/-! ## Acts -/

/-- The single things that controls, clicks and time do to a viewer. -/
inductive Act : Viewer α → Viewer α → Prop
  | look (t : Transform α) (v : Viewer α) :
    Act v { v with engine := v.engine.withLook { v.engine.look with transform := t } }
  | resize (size : Vec α) (v : Viewer α) : Act v { v with engine := v.engine.resize size }
  | advance (seconds : α) (v : Viewer α) : Act v (v.advance seconds)
  | search (text : String) (v : Viewer α) : Act v { v with searchText := text, engine := v.engine.startSearch text }
  | metric {name : String} {v : Viewer α} (h : name ∈ v.metricNames) :
    Act v { v with engine := v.engine.setMetric name }
  | layout {mode : LayoutMode} {v : Viewer α} (h : mode ≠ v.engine.mode) :
    Act v { v with dragging := none, engine := v.engine.setLayout mode }
  | goTo {id : String} {v : Viewer α} (h : id ∈ v.matchList) : Act v (v.select (some id))
  | click (point : Vec α) (v : Viewer α) : Act v (v.select (v.idAt point))

/-- Any number of acts. -/
abbrev Acts : Viewer α → Viewer α → Prop := Relation.ReflTransGen Act

theorem Act.moves {v v' : Viewer α} (h : Act v v') : Engine.Moves v.engine v'.engine := by
  have hchanges : ∀ {e e' : Engine α}, Engine.Changes e e' → Engine.Moves e e' :=
    fun h => h.lift id fun _ _ => .change
  cases h with
  | look t => exact .single (.change (.look t v.engine))
  | resize size => exact hchanges (v.engine.resize_changes size)
  | advance seconds => exact hchanges (v.engine.advance_changes seconds)
  | search text => exact .single (.change (.search text v.engine))
  | metric _ => exact .single (.change (.metric _ v.engine))
  | layout _ => exact .single (.setLayout _ v.engine)
  | goTo _ => rw [select_engine]
  | click point => rw [select_engine]

theorem changes_graph {e e' : Engine α} (h : Engine.Changes e e') : e'.model.graph = e.model.graph :=
  Engine.preserved_along (·.model.graph = e.model.graph) (fun hchange he => hchange.graph.trans he) h rfl

theorem Act.graph {v v' : Viewer α} (h : Act v v') : v'.engine.model.graph = v.engine.model.graph := by
  cases h with
  | look t => rfl
  | resize size => exact changes_graph (v.engine.resize_changes size)
  | advance seconds => exact changes_graph (v.engine.advance_changes seconds)
  | search text => rfl
  | metric _ => rfl
  | layout _ => exact v.engine.setLayout_graph _
  | goTo _ => rw [select_engine]
  | click point => rw [select_engine]

theorem Acts.preserves {P : Viewer α → Prop} (hP : ∀ {v v' : Viewer α}, Act v v' → P v → P v') {v v' : Viewer α}
    (h : Acts v v') (hv : P v) : P v' := by
  induction h with
  | refl => exact hv
  | tail _ hlast ih => exact hP hlast ih

theorem Acts.moves {v v' : Viewer α} (h : Acts v v') : Engine.Moves v.engine v'.engine :=
  h.preserves (P := fun w => Engine.Moves v.engine w.engine) (fun hact hw => hw.trans hact.moves) .refl

theorem moves_inOrder {e e' : Engine α} (h : Engine.Moves e e') (he : e.viewport.InOrder) : e'.viewport.InOrder :=
  Engine.preserved_along (·.viewport.InOrder) Engine.Move.inOrder h he

/-! ## Controls -/

theorem changeView_acts (v : Viewer α) (change : Viewport α → Except Fault (Viewport α))
    (h : ∃ t, change v.engine.viewport = .ok { v.engine.viewport with transform := t }) :
    ∃ v', (do pure { v with engine := ← v.engine.changeView change } : Except Fault (Viewer α)) = .ok v' ∧
      Acts v v' := by
  obtain ⟨t, ht⟩ := v.engine.changeView_withLook change h
  refine ⟨_, ?_, .single (.look t v)⟩
  rw [ht]
  rfl

theorem choose_acts (v : Viewer α) (hv : v.engine.viewport.InOrder) (choice : Choice) :
    ∃ v', v.choose choice = .ok v' ∧ Acts v v' := by
  cases choice with
  | search text => exact ⟨_, rfl, .single (.search text v)⟩
  | goTo id =>
    rw [choose]
    split
    · next hlisted =>
      obtain ⟨t, found, ht⟩ := v.engine.focusNode_withLook id hv
      let w : Viewer α := { v with engine := v.engine.withLook { v.engine.look with transform := t } }
      have hlook : Acts v w := .single (.look t v)
      have hgo : Act w (w.select (some id)) := .goTo (List.contains_iff_mem.mp hlisted)
      refine ⟨w.select (some id), ?_, hlook.tail hgo⟩
      rw [ht]
      rfl
    · exact ⟨v, rfl, .refl⟩
  | layout mode =>
    rw [choose]
    split
    · exact ⟨v, rfl, .refl⟩
    · next hmode => exact ⟨_, rfl, .single (.layout hmode)⟩
  | metric name =>
    rw [choose]
    split
    · next hname => exact ⟨_, rfl, .single (.metric (List.contains_iff_mem.mp hname))⟩
    · exact ⟨v, rfl, .refl⟩
  | zoomIn => exact v.changeView_acts _ (v.engine.viewport.zoomAt_ok hv _ _)
  | zoomOut => exact v.changeView_acts _ (v.engine.viewport.zoomAt_ok hv _ _)
  | resetView => exact v.changeView_acts _ ⟨.identity, rfl⟩

theorem choices_acts (v : Viewer α) (hv : v.engine.viewport.InOrder) (choices : List Choice) :
    ∃ v', choices.foldlM choose v = .ok v' ∧ Acts v v' := by
  refine foldlM_history choose (fun _ w => Acts v w) .refl (fun _ hacts choice => ?_) choices
  obtain ⟨v', hv', hact⟩ := choose_acts _ (moves_inOrder hacts.moves hv) choice
  exact ⟨v', hv', hacts.trans hact⟩

/-! ## The canvas -/

/-- What a gesture does to the node in the hand. -/
def hold (canvas : Rect α) (g : Gesture α) (v : Viewer α) : Viewer α := (v.grab canvas g).carry canvas g

theorem grab_changes (canvas : Rect α) (g : Gesture α) (v : Viewer α) :
    Engine.Changes v.engine (v.grab canvas g).engine := by
  unfold grab
  split
  · split
    · exact v.engine.beginDrag_changes _
    · exact .refl
  · exact .refl

theorem carry_changes (canvas : Rect α) (g : Gesture α) (v : Viewer α) :
    Engine.Changes v.engine (v.carry canvas g).engine := by
  unfold carry
  split
  · exact .refl
  · split
    · exact .single (.drop _ v.engine)
    · split
      · exact .single (.drag _ _ v.engine)
      · exact .refl

theorem hold_changes (canvas : Rect α) (g : Gesture α) (v : Viewer α) :
    Engine.Changes v.engine (v.hold canvas g).engine :=
  (v.grab_changes canvas g).trans ((v.grab canvas g).carry_changes canvas g)

theorem zoomBy_acts (canvas : Rect α) (g : Gesture α) (v : Viewer α) (hv : v.engine.viewport.InOrder) :
    ∃ v', v.zoomBy canvas g = .ok v' ∧ Acts v v' := by
  unfold zoomBy
  split
  · exact ⟨v, rfl, .refl⟩
  · exact v.changeView_acts _ (v.engine.viewport.zoomAt_ok hv _ _)

theorem panBy_acts (g : Gesture α) (v : Viewer α) (hv : v.engine.viewport.InOrder) :
    ∃ v', v.panBy g = .ok v' ∧ Acts v v' := by
  unfold panBy
  split
  · exact v.changeView_acts _ (v.engine.viewport.setTransform_ok hv _)
  · exact ⟨v, rfl, .refl⟩

theorem clickAt_acts (canvas : Rect α) (g : Gesture α) (v : Viewer α) : Acts v (v.clickAt canvas g) := by
  unfold clickAt
  split
  · split
    · exact .single (.click _ v)
    · exact .refl
  · exact .refl

/-- Acts, then the hand on the canvas, if it is on screen, and acts again. -/
def Worked (input : FrameInput α) (v v' : Viewer α) : Prop :=
  match input.canvas with
  | none => Acts v v'
  | some canvas => ∃ w, Acts v w ∧ Acts (w.hold canvas.rect canvas.gesture) v'

theorem runCanvas_acts (input : CanvasInput α) (v : Viewer α) (hv : v.engine.viewport.InOrder) :
    ∃ w v', v.runCanvas input = .ok v' ∧ Acts v w ∧ Acts (w.hold input.rect input.gesture) v' := by
  have hresized : Acts v { v with engine := v.engine.resize input.rect.size } := .single (.resize input.rect.size v)
  obtain ⟨w, hzoom, hzoomed⟩ := zoomBy_acts input.rect input.gesture _ (moves_inOrder hresized.moves hv)
  have hw : w.engine.viewport.InOrder := moves_inOrder (hresized.moves.trans hzoomed.moves) hv
  have hheld : (w.hold input.rect input.gesture).engine.viewport.InOrder :=
    moves_inOrder ((w.hold_changes input.rect input.gesture).lift id fun _ _ => .change) hw
  obtain ⟨u, hpan, hpanned⟩ := panBy_acts input.gesture _ hheld
  refine ⟨w, (u.clickAt input.rect input.gesture).advance input.seconds, ?_, hresized.trans hzoomed,
    (hpanned.trans (u.clickAt_acts _ _)).tail (.advance _ _)⟩
  rw [hold] at hpan
  rw [runCanvas, gesture, hzoom]
  simp [bind, Except.bind, hpan, pure, Except.pure]

/-! ## Frames -/

/-- A frame until its windows are closed. -/
def work (input : FrameInput α) (v : Viewer α) : Except Fault (Viewer α) := do
  let v ← input.choices.foldlM choose v
  match input.canvas with
  | some canvas => v.runCanvas canvas
  | none => pure v

/-- Closes windows and drops their panels. -/
def close (closed : List ℕ) (v : Viewer α) : Viewer α := (closed.foldl (fun v i => v.closePanel i) v).dropClosed

theorem work_worked (input : FrameInput α) (v : Viewer α) (hv : v.engine.viewport.InOrder) :
    ∃ v', v.work input = .ok v' ∧ Worked input v v' := by
  obtain ⟨w, hchoices, hacts⟩ := v.choices_acts hv input.choices
  rw [work, hchoices]
  unfold Worked
  cases input.canvas with
  | none => exact ⟨w, rfl, hacts⟩
  | some canvas =>
    obtain ⟨u, v', hcanvas, hbefore, hafter⟩ := runCanvas_acts canvas w (moves_inOrder hacts.moves hv)
    exact ⟨v', hcanvas, u, hacts.trans hbefore, hafter⟩

theorem frame_eq (input : FrameInput α) (v : Viewer α) :
    v.frame input = (do pure ((← v.work input).close input.closed)) := by
  rw [frame, work, bind_assoc]
  cases input.canvas <;> rfl

theorem Worked.preserves {input : FrameInput α} {P : Viewer α → Prop}
    (hact : ∀ {v v' : Viewer α}, Act v v' → P v → P v')
    (hhold : ∀ canvas, input.canvas = some canvas → ∀ v, P v → P (v.hold canvas.rect canvas.gesture))
    {v v' : Viewer α} (h : Worked input v v') (hv : P v) : P v' := by
  unfold Worked at h
  split at h
  · exact h.preserves hact hv
  · next canvas hcanvas =>
    obtain ⟨w, hbefore, hafter⟩ := h
    exact hafter.preserves hact (hhold canvas hcanvas w (hbefore.preserves hact hv))

theorem Worked.moves {input : FrameInput α} {v v' : Viewer α} (h : Worked input v v') :
    Engine.Moves v.engine v'.engine :=
  h.preserves (P := fun w => Engine.Moves v.engine w.engine) (fun hact hw => hw.trans hact.moves)
    (fun _ _ w hw => hw.trans ((w.hold_changes _ _).lift id fun _ _ => .change)) .refl

theorem Worked.graph {input : FrameInput α} {v v' : Viewer α} (h : Worked input v v') :
    v'.engine.model.graph = v.engine.model.graph :=
  h.preserves (P := fun w => w.engine.model.graph = v.engine.model.graph) (fun hact hw => hact.graph.trans hw)
    (fun _ _ w hw => (changes_graph (w.hold_changes _ _)).trans hw) rfl

omit [Scalar α] in
theorem foldl_closePanel (closed : List ℕ) (v : Viewer α) :
    ∃ panels, closed.foldl (fun v i => v.closePanel i) v = { v with panels := panels } ∧
      panels.length = v.panels.length := by
  induction closed generalizing v with
  | nil => exact ⟨v.panels, rfl, rfl⟩
  | cons i rest ih =>
    obtain ⟨panels, hpanels, hlength⟩ := ih (v.closePanel i)
    exact ⟨panels, hpanels, hlength.trans (List.length_modify _ _ _)⟩

omit [Scalar α] in
@[simp] theorem close_engine (closed : List ℕ) (v : Viewer α) : (v.close closed).engine = v.engine := by
  obtain ⟨panels, hpanels, -⟩ := v.foldl_closePanel closed
  rw [close, hpanels]
  rfl

omit [Scalar α] in
@[simp] theorem close_dragging (closed : List ℕ) (v : Viewer α) : (v.close closed).dragging = v.dragging := by
  obtain ⟨panels, hpanels, -⟩ := v.foldl_closePanel closed
  rw [close, hpanels]
  rfl

/-- A frame returns. It is work, and then windows are closed. -/
theorem frame_worked (input : FrameInput α) (v : Viewer α) (hv : v.engine.viewport.InOrder) :
    ∃ w, v.work input = .ok w ∧ v.frame input = .ok (w.close input.closed) ∧ Worked input v w := by
  obtain ⟨w, hwork, hworked⟩ := v.work_worked input hv
  refine ⟨w, hwork, ?_, hworked⟩
  rw [frame_eq, hwork]
  rfl

/-! ## Runs -/

theorem start_moves (startup : Startup α) (graph : GraphSpec) :
    Engine.Moves (.ofSettings startup.settings) (start startup graph).engine :=
  ((Relation.ReflTransGen.single (.change (.metric startup.metric _))).tail (.setLayout startup.layout _)).tail
    (.load graph _)

/-- What one more frame or reload keeps holds at the end of a run, and the run returns. -/
theorem run_history {start : Viewer α} (horder : start.engine.viewport.InOrder)
    (P : List (ViewerEvent α) → Viewer α → Prop) (hstart : P [] start)
    (hframe : ∀ {past v w} {input : FrameInput α}, start.run past = .ok v → P past v → v.work input = .ok w →
      Worked input v w → P (past ++ [.frame input]) (w.close input.closed))
    (hreplace : ∀ {past v} (graph : GraphSpec), start.run past = .ok v → P past v →
      P (past ++ [.replaceGraph graph]) (v.replaceGraph graph))
    (events : List (ViewerEvent α)) :
    ∃ v, start.run events = .ok v ∧ Engine.Moves start.engine v.engine ∧ P events v := by
  refine foldlM_history step (fun past v => Engine.Moves start.engine v.engine ∧ P past v) ⟨.refl, hstart⟩ ?_ events
  rintro past v hpast ⟨hmoves, hv⟩ event
  have hinOrder := moves_inOrder hmoves horder
  cases event with
  | frame input =>
    obtain ⟨w, hwork, hclosed, hworked⟩ := v.frame_worked input hinOrder
    refine ⟨_, hclosed, ?_, hframe hpast hv hwork hworked⟩
    rw [close_engine]
    exact hmoves.trans hworked.moves
  | replaceGraph graph => exact ⟨_, rfl, hmoves.tail (.load graph _), hreplace graph hpast hv⟩

end Viewer

end CallAtlas
