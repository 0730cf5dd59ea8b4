import CallAtlas.Proofs.Engine.Rows
import CallAtlas.Proofs.Viewer.Run

/-! The node in the hand is the one that the engine drags.

The viewer and the engine each keep account of what is dragged. `Mirrored` says that they agree, and that nothing is in
the hand unless a drag is under way on the canvas. Acts keep it (`Act.mirrored`), a change of the layout in the middle
of a drag included, and so does the hand itself as long as drags start one after the other (`hold_mirrored`). -/

namespace CallAtlas

set_option autoImplicit false

variable {α : Type}

/-! ## Drags as they are reported -/

namespace ViewerEvent

/-- The canvas is drawn and told that a drag starts on it, with whatever button. -/
def StartsDrag (event : ViewerEvent α) : Prop :=
  ∃ input canvas, event = .frame input ∧ input.canvas = some canvas ∧ canvas.gesture.drag = some .starts

/-- The canvas is drawn and told that the drag on it is over, or there is another graph. -/
def EndsDrag (event : ViewerEvent α) : Prop :=
  (∃ input canvas, event = .frame input ∧ input.canvas = some canvas ∧ canvas.gesture.drag = some .stops) ∨
    ∃ graph, event = .replaceGraph graph

end ViewerEvent

/-- The latest drag that started on the canvas has not been seen to end. -/
def DragUnderWay (events : List (ViewerEvent α)) : Prop :=
  Since (fun _ event => event.StartsDrag) (fun _ event => event.EndsDrag) events

/-- A drag starts on the canvas only if the one before it has ended. -/
def DragsApart (events : List (ViewerEvent α)) : Prop :=
  ∀ past event after, events = past ++ event :: after → event.StartsDrag → ¬ DragUnderWay past

theorem dragsApart_append_singleton (past : List (ViewerEvent α)) (event : ViewerEvent α) :
    DragsApart (past ++ [event]) ↔ DragsApart past ∧ (event.StartsDrag → ¬ DragUnderWay past) := by
  constructor
  · intro h
    refine ⟨fun before first after hpast => ?_, h past event [] rfl⟩
    exact h before first (after ++ [event]) (by rw [hpast]; simp)
  · rintro ⟨hpast, hlast⟩ before first after h
    rcases after.eq_nil_or_concat' with rfl | ⟨after', last, rfl⟩
    · obtain ⟨rfl, hfirst⟩ := List.append_inj' h rfl
      rw [List.singleton_inj] at hfirst
      exact hfirst ▸ hlast
    · rw [← List.cons_append, ← List.append_assoc] at h
      exact hpast before first after' (List.append_inj' h rfl).1

section Frames

variable (input : FrameInput α) (past : List (ViewerEvent α))

theorem startsDrag_frame_iff :
    (ViewerEvent.frame input).StartsDrag ↔
      ∃ canvas, input.canvas = some canvas ∧ canvas.gesture.drag = some .starts := by
  simp [ViewerEvent.StartsDrag]

theorem endsDrag_frame_iff :
    (ViewerEvent.frame input).EndsDrag ↔ ∃ canvas, input.canvas = some canvas ∧ canvas.gesture.drag = some .stops := by
  simp [ViewerEvent.EndsDrag]

/-- A frame without the canvas tells nothing of drags. -/
theorem underWay_append_hidden (h : input.canvas = none) :
    DragUnderWay (past ++ [.frame input]) ↔ DragUnderWay past := by
  rw [DragUnderWay, since_append_singleton, startsDrag_frame_iff, endsDrag_frame_iff]
  simp [h, DragUnderWay]

theorem underWay_append_frame {canvas : CanvasInput α} (h : input.canvas = some canvas) :
    DragUnderWay (past ++ [.frame input]) ↔
      canvas.gesture.drag = some .starts ∨ DragUnderWay past ∧ canvas.gesture.drag ≠ some .stops := by
  rw [DragUnderWay, since_append_singleton, startsDrag_frame_iff, endsDrag_frame_iff]
  simp [h, DragUnderWay]

end Frames

namespace Engine

variable [Scalar α]

theorem endDrag_nodes {node : ℕ} {e : Engine α} (h : e.drags.nodes = [node]) : (e.endDrag node).drags.nodes = [] := by
  rw [Drags.nodes, List.map_eq_nil_iff, List.eq_nil_iff_forall_not_mem]
  intro drag hdrag
  obtain ⟨hmem, hne⟩ := (e.held.mem_finish_active node drag).mp hdrag
  have hnode : drag.node ∈ e.drags.nodes := List.mem_map_of_mem hmem
  rw [h, List.mem_singleton] at hnode
  exact hne hnode

end Engine

namespace Viewer

variable [Scalar α]

/-! ## Acts and the hand -/

/-- What is in the hand is what the engine drags, and there is something only if a drag is under way. -/
structure Mirrored (underWay : Prop) (v : Viewer α) : Prop where
  drags : v.engine.drags.nodes = v.dragging.toList
  underWay : v.dragging.isSome → underWay

omit [Scalar α] in
theorem Mirrored.of_same {underWay : Prop} {v v' : Viewer α} (h : v.Mirrored underWay)
    (hengine : v'.engine.drags = v.engine.drags) (hhand : v'.dragging = v.dragging) : v'.Mirrored underWay :=
  ⟨by rw [hengine, hhand, h.drags], by rw [hhand]; exact h.underWay⟩

omit [Scalar α] in
theorem mirrored_of_free {underWay : Prop} {v : Viewer α} (hengine : v.engine.drags.nodes = [])
    (hhand : v.dragging = none) : v.Mirrored underWay :=
  ⟨by rw [hengine, hhand, Option.toList_none], by simp [hhand]⟩

theorem Act.mirrored {underWay : Prop} {v v' : Viewer α} (hact : Act v v') (h : v.Mirrored underWay) :
    v'.Mirrored underWay := by
  cases hact with
  | look t => exact h.of_same rfl rfl
  | resize size =>
    obtain ⟨viewport, simulation, hframe⟩ := v.engine.resize_frame size
    have hdrags := congrArg Engine.drags hframe
    exact h.of_same hdrags rfl
  | advance seconds =>
    obtain ⟨model, simulation, elapsed, hframe⟩ := v.engine.advance_frame seconds
    have hdrags := congrArg Engine.drags hframe
    exact h.of_same hdrags rfl
  | search text => exact h.of_same rfl rfl
  | metric _ => exact h.of_same rfl rfl
  | layout _ => exact mirrored_of_free rfl rfl
  | goTo _ => exact h.of_same (by rw [select_engine]) (select_dragging _ _)
  | click point => exact h.of_same (by rw [select_engine]) (select_dragging _ _)

/-- A node is taken with empty hands only. -/
theorem grab_mirrored {underWay : Prop} (canvas : Rect α) {g : Gesture α} {v : Viewer α} (h : v.Mirrored underWay)
    (hstarts : g.drag = some .starts → ¬ underWay) :
    (v.grab canvas g).Mirrored (g.drag = some .starts ∨ underWay) := by
  have hkept : v.Mirrored (g.drag = some .starts ∨ underWay) := ⟨h.drags, fun hhand => Or.inr (h.underWay hhand)⟩
  unfold grab
  split
  · next hgrab =>
    have hphase : g.drag = some .starts := by
      simp only [Gesture.startsDrag, Bool.and_eq_true, beq_iff_eq] at hgrab
      exact hgrab.1
    have hempty : v.dragging = none := by
      cases hhand : v.dragging with
      | none => rfl
      | some node => exact absurd (h.underWay (by rw [hhand]; rfl)) (hstarts hphase)
    have hidle : v.engine.drags.nodes = [] := by rw [h.drags, hempty, Option.toList_none]
    split
    · next point _ =>
      cases hnode : v.engine.nodeAt (point - canvas.min) with
      | none =>
        rw [Engine.beginDrag_of_not_free (fun node hnode' => by rw [hnode] at hnode'; cases hnode')]
        exact mirrored_of_free hidle rfl
      | some node =>
        obtain ⟨held, hbegin, hnodes⟩ := Engine.beginDrag_of_free hnode (by simp [hidle])
        rw [hbegin]
        refine ⟨?_, fun _ => Or.inl hphase⟩
        rw [hidle] at hnodes
        exact hnodes
    · exact hkept
  · exact hkept

theorem carry_mirrored {underWay : Prop} (canvas : Rect α) (g : Gesture α) {v : Viewer α} (h : v.Mirrored underWay) :
    (v.carry canvas g).Mirrored (underWay ∧ g.drag ≠ some .stops) := by
  unfold carry
  split
  · next hhand =>
    refine mirrored_of_free ?_ hhand
    rw [h.drags, hhand, Option.toList_none]
  · next node hhand =>
    have hnodes : v.engine.drags.nodes = [node] := by rw [h.drags, hhand, Option.toList_some]
    have hunder : underWay := h.underWay (by rw [hhand]; rfl)
    split
    · exact mirrored_of_free (Engine.endDrag_nodes hnodes) rfl
    · next hgoes =>
      have hphase : g.drag ≠ some .stops := by simpa [Gesture.stopsDrag] using hgoes
      have hkept : v.Mirrored (underWay ∧ g.drag ≠ some .stops) := ⟨h.drags, fun _ => ⟨hunder, hphase⟩⟩
      split
      · exact hkept.of_same (v.engine.held.moveTo_drags node _) rfl
      · exact hkept

theorem hold_mirrored {underWay : Prop} (canvas : Rect α) {g : Gesture α} {v : Viewer α} (h : v.Mirrored underWay)
    (hstarts : g.drag = some .starts → ¬ underWay) :
    (v.hold canvas g).Mirrored (g.drag = some .starts ∨ underWay ∧ g.drag ≠ some .stops) := by
  have hcarried := carry_mirrored canvas g (grab_mirrored canvas h hstarts)
  refine ⟨hcarried.drags, fun hhand => ?_⟩
  obtain ⟨hstarted | hunder, hgoes⟩ := hcarried.underWay hhand
  · exact Or.inl hstarted
  · exact Or.inr ⟨hunder, hgoes⟩

/-! ## Runs -/

theorem Worked.mirrored {past : List (ViewerEvent α)} {input : FrameInput α} {v w : Viewer α}
    (hworked : Worked input v w) (hapart : (ViewerEvent.frame input).StartsDrag → ¬ DragUnderWay past)
    (h : v.Mirrored (DragUnderWay past)) : w.Mirrored (DragUnderWay (past ++ [.frame input])) := by
  unfold Worked at hworked
  split at hworked
  · next hhidden =>
    rw [underWay_append_hidden input past hhidden]
    exact hworked.preserves Act.mirrored h
  · next canvas hcanvas =>
    obtain ⟨u, hbefore, hafter⟩ := hworked
    rw [underWay_append_frame input past hcanvas]
    have hbefore' := hbefore.preserves Act.mirrored h
    refine hafter.preserves Act.mirrored (hold_mirrored canvas.rect hbefore' fun hstarts => ?_)
    exact hapart ((startsDrag_frame_iff input).mpr ⟨canvas, hcanvas, hstarts⟩)

/-- If drags start on the canvas one after the other only, then after every run of frames and reloads the engine drags
exactly the node in the hand, that node and no other is pinned, and once the drag is over nothing is in the hand. -/
theorem run_drags_what_is_in_hand (startup : Startup Float32) (graph : GraphSpec) (events : List (ViewerEvent Float32))
    (hapart : DragsApart events) :
    ∃ v, (start startup graph).run events = .ok v ∧
      v.engine.drags.active.map (·.node) = v.dragging.toList ∧
      (∀ i b, v.engine.model.body? i = some b → (b.pin.isSome ↔ v.dragging = some i)) ∧
      (¬ DragUnderWay events → v.dragging = none ∧ ∀ i b, v.engine.model.body? i = some b → b.pin = none) := by
  have hsettings := Engine.ofSettings_inOrder (by decide) startup.settings
  have hstart := start_moves startup graph
  obtain ⟨v, hrun, hmoves, hmirrored⟩ := run_history (moves_inOrder hstart hsettings)
    (fun past v => DragsApart past → v.Mirrored (DragUnderWay past)) (fun _ => mirrored_of_free rfl rfl)
    (fun {past v w input} _ hv _ hworked happart => by
      obtain ⟨hpast, hlast⟩ := (dragsApart_append_singleton past _).mp happart
      exact (hworked.mirrored hlast (hv hpast)).of_same (by rw [close_engine]) (close_dragging _ w))
    (fun _ _ _ _ => mirrored_of_free rfl rfl) events
  have hv := hmirrored hapart
  have hcoherent : v.engine.Coherent := Engine.preserved_along Engine.Coherent (Engine.Move.coherent clamp_unit_zero)
    (hstart.trans hmoves) (Engine.ofSettings_coherent startup.settings)
  have hpins : ∀ i b, v.engine.model.body? i = some b → (b.pin.isSome ↔ v.dragging = some i) := by
    intro i b hb
    have hpinned : b.pin.isSome ↔ i ∈ v.engine.drags.nodes := (hcoherent.pinned i b hb).1
    rw [hpinned, hv.drags, Option.mem_toList]
  refine ⟨v, hrun, hv.drags, hpins, fun hover => ?_⟩
  have hempty : v.dragging = none := by
    cases hhand : v.dragging with
    | none => rfl
    | some node => exact absurd (hv.underWay (by rw [hhand]; rfl)) hover
  refine ⟨hempty, fun i b hb => ?_⟩
  have hfree := hpins i b hb
  rw [hempty] at hfree
  simpa using hfree

/-- A frame in which the pointer drags on the canvas with the primary button, in the middle of it. -/
def draggedFrame (choices : List Choice) (phase : DragPhase) : ViewerEvent Float32 :=
  let point : Vec Float32 := ⟨480.0, 320.0⟩
  let gesture : Gesture Float32 :=
    { (Gesture.none : Gesture Float32) with
      hovered := true, hover := some point, down := [.primary], press := some point, pointer := some point
      drag := some phase }
  .frame ⟨choices, some ⟨⟨.zero, ⟨960.0, 640.0⟩⟩, gesture, 0.0⟩, []⟩

/-- The layout changes while a node is dragged, and the node is dragged again. -/
theorem run_redrag_after_layout :
    let events := [draggedFrame [] .starts, draggedFrame [.layout .radial] .continues, draggedFrame [] .stops,
      draggedFrame [] .starts]
    DragsApart events ∧
      ∃ v, (start ⟨"", .standard, .force, "complexity"⟩ ⟨[.ofId "a"], []⟩).run events = .ok v ∧
        v.dragging = some 0 ∧ v.engine.drags.active.map (·.node) = [0] ∧
        ∀ i b, v.engine.model.body? i = some b → (b.pin.isSome ↔ 0 = i) := by
  intro events
  have hphase : ∀ choices phase, ((draggedFrame choices phase).StartsDrag ↔ phase = .starts) ∧
      ((draggedFrame choices phase).EndsDrag ↔ phase = .stops) := by
    intro choices phase
    rw [draggedFrame, startsDrag_frame_iff, endsDrag_frame_iff]
    simp
  have hnil : DragsApart ([] : List (ViewerEvent Float32)) := by simp [DragsApart]
  have hevents : events = ((([] ++ [draggedFrame [] .starts]) ++ [draggedFrame [.layout .radial] .continues]) ++
      [draggedFrame [] .stops]) ++ [draggedFrame [] .starts] := rfl
  have hapart : DragsApart events := by
    rw [hevents]
    simp only [dragsApart_append_singleton, DragUnderWay, since_append_singleton, hphase]
    simp [hnil, not_since_nil]
  obtain ⟨v, hrun, hnodes, hpins, -⟩ := run_drags_what_is_in_hand _ _ events hapart
  have hhand : v.dragging = some 0 := by
    have hlast : ((start ⟨"", .standard, .force, "complexity"⟩ ⟨[.ofId "a"], []⟩).run events).toOption.map
        (·.dragging) = some (some 0) := by decide +kernel
    rw [hrun] at hlast
    exact Option.some.inj hlast
  rw [hhand] at hnodes hpins
  exact ⟨hapart, v, hrun, hhand, hnodes, fun i b hb => (hpins i b hb).trans (by simp)⟩

end Viewer

end CallAtlas
