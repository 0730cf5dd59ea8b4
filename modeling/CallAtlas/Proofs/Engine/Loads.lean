import CallAtlas.Proofs.Engine.Forces

/-! A load leaves no trace of what came before it.

What a load makes of an engine depends on its settings, the size of its viewport, its mode and its root only, apart
from the view, the query and the metric, which stay. Two more fields stay, the scale bounds and the target temperature
of drags; the settings have fixed them for good (`Engine.Configured`). -/

namespace CallAtlas

set_option autoImplicit false

variable {α : Type} [Scalar α]

namespace Engine

/-! ## What settings fix for good -/

/-- The scale bounds and the target temperature of drags are those of the settings. -/
structure Configured (e : Engine α) : Prop where
  minScale : e.viewport.minScale = e.settings.viewport.minScale
  maxScale : e.viewport.maxScale = e.settings.viewport.maxScale
  dragTarget : e.drags.alphaTarget = e.settings.simulation.dragAlphaTarget

theorem ofSettings_configured (settings : Settings α) : (ofSettings settings).Configured := ⟨rfl, rfl, rfl⟩

theorem Move.scaleBounds {e e' : Engine α} (hmove : Move e e') :
    e'.viewport.minScale = e.viewport.minScale ∧ e'.viewport.maxScale = e.viewport.maxScale := by
  cases hmove with
  | load graph => exact ⟨rfl, rfl⟩
  | setLayout mode => exact ⟨rfl, rfl⟩
  | change hchange => cases hchange <;> exact ⟨rfl, rfl⟩

theorem Move.configured {e e' : Engine α} (hmove : Move e e') (h : e.Configured) : e'.Configured := by
  refine ⟨?_, ?_, ?_⟩
  · rw [hmove.scaleBounds.1, hmove.settings, h.minScale]
  · rw [hmove.scaleBounds.2, hmove.settings, h.maxScale]
  · rw [hmove.drags_alphaTarget, hmove.settings, h.dragTarget]

/-- The moves of a run that is known to return. -/
theorem moves_of_run {e e' : Engine α} {ops : List (Operation α)} {replies : List (Reply α)}
    (he : e.viewport.InOrder) (hrun : e.run ops = .ok (e', replies)) : Moves e e' := by
  obtain ⟨e₁, replies₁, hrun₁, hmoves⟩ := run_moves ops e he
  rw [hrun] at hrun₁
  cases hrun₁
  exact hmoves

theorem run_configured {settings : Settings Float32} {ops : List (Operation Float32)} {e : Engine Float32}
    {replies : List (Reply Float32)} (hrun : (ofSettings settings).run ops = .ok (e, replies)) : e.Configured :=
  preserved_along Configured Move.configured (moves_of_run (ofSettings_inOrder (by decide) settings) hrun)
    (ofSettings_configured settings)

/-! ## Loads -/

theorem load_active (graph : GraphSpec) (e : Engine α) : (e.load graph).drags.active = [] := rfl

theorem load_elapsed (graph : GraphSpec) (e : Engine α) : (e.load graph).elapsed = 0.0 := rfl

/-- The loaded engines differ in view, query and metric at most. -/
theorem load_eq_load (graph : GraphSpec) {e e' : Engine α} (he : e.Configured) (he' : e'.Configured)
    (hsettings : e.settings = e'.settings) (hsize : e.viewport.size = e'.viewport.size) (hmode : e.mode = e'.mode)
    (hroot : e.root = e'.root) :
    e'.load graph = { e.load graph with
      viewport := { (e.load graph).viewport with transform := e'.transform }
      search := e'.search.refresh (.ofSpec graph)
      metric := e'.metric } := by
  obtain ⟨settings, _, _, mode, root, ⟨_, size, minScale, maxScale⟩, _, _, ⟨_, dragTarget⟩, _⟩ := e
  obtain ⟨settings', _, _, mode', root', ⟨_, size', minScale', maxScale'⟩, _, _, ⟨_, dragTarget'⟩, _⟩ := e'
  obtain ⟨hmin, hmax, htarget⟩ := he
  obtain ⟨hmin', hmax', htarget'⟩ := he'
  dsimp only at *
  subst hsettings hsize hmode hroot hmin hmax htarget hmin' hmax' htarget'
  rfl

/-- After any two histories that agree on settings, size of the viewport, mode and root, a load of the same graph gives
the same model and simulation, no drags and no time to catch up with; all that may still differ is the view, the query
and the metric. -/
theorem load_forgets_history {settings settings' : Settings Float32} {ops ops' : List (Operation Float32)}
    {e e' : Engine Float32} {replies replies' : List (Reply Float32)}
    (hrun : (ofSettings settings).run ops = .ok (e, replies))
    (hrun' : (ofSettings settings').run ops' = .ok (e', replies')) (hsettings : e.settings = e'.settings)
    (hsize : e.viewport.size = e'.viewport.size) (hmode : e.mode = e'.mode) (hroot : e.root = e'.root)
    (graph : GraphSpec) :
    ∃ l l', e.step (.load graph) = .ok (l, .done) ∧ e'.step (.load graph) = .ok (l', .done) ∧
      l.model = l'.model ∧ l.simulation = l'.simulation ∧ l.drags.active = [] ∧ l'.drags.active = [] ∧
      l.elapsed = 0.0 ∧ l'.elapsed = 0.0 ∧
      l' = { l with
        viewport := { l.viewport with transform := e'.transform }
        search := e'.search.refresh (.ofSpec graph)
        metric := e'.metric } := by
  have hloads := load_eq_load graph (run_configured hrun) (run_configured hrun') hsettings hsize hmode hroot
  refine ⟨e.load graph, e'.load graph, rfl, rfl, ?_, ?_, load_active graph e, load_active graph e',
    load_elapsed graph e, load_elapsed graph e', hloads⟩
  · rw [hloads]
  · rw [hloads]

/-- An engine before anything has happened to it. -/
def untouched : Engine Float32 := ofSettings .standard

/-- A node is dragged, and the simulation runs with it. -/
def dragging : List (Operation Float32) :=
  [.load ⟨[.ofId "a"], []⟩, .beginDrag ⟨480.0, 320.0⟩, .advance 0.02, .search "b"]

theorem reload_while_dragging :
    ∃ e replies, untouched.run dragging = .ok (e, replies) ∧ e.drags.active.map (·.node) = [0] ∧
      untouched.settings = e.settings ∧ untouched.viewport.size = e.viewport.size ∧ untouched.mode = e.mode ∧
      untouched.root = e.root ∧
      ∃ l l', untouched.step (.load ⟨[.ofId "b"], []⟩) = .ok (l, .done) ∧
        e.step (.load ⟨[.ofId "b"], []⟩) = .ok (l', .done) ∧ l.model = l'.model ∧ l.simulation = l'.simulation ∧
        l'.drags.active = [] := by
  have hresult : (untouched.run dragging).toOption.map (fun result =>
      (result.1.drags.active.map (·.node), result.1.viewport.size, result.1.mode, result.1.root)) =
      some ([0], untouched.viewport.size, untouched.mode, untouched.root) := by
    decide +kernel
  cases hrun : untouched.run dragging with
  | error fault =>
    rw [hrun] at hresult
    cases hresult
  | ok result =>
    obtain ⟨e, replies⟩ := result
    rw [hrun] at hresult
    simp only [Except.toOption, Option.map_some, Option.some.injEq, Prod.mk.injEq] at hresult
    obtain ⟨hactive, hsize, hmode, hroot⟩ := hresult
    have hmoves : Moves untouched e := moves_of_run (ofSettings_inOrder (by decide) .standard) hrun
    have hsettings : e.settings = untouched.settings :=
      preserved_along (·.settings = untouched.settings) (fun hmove he => hmove.settings.trans he) hmoves rfl
    have hstart : untouched.run [] = .ok (untouched, []) := rfl
    obtain ⟨l, l', hl, hl', hmodel, hsimulation, _, hidle, _⟩ := load_forgets_history hstart hrun hsettings.symm
      hsize.symm hmode.symm hroot.symm ⟨[.ofId "b"], []⟩
    exact ⟨e, replies, rfl, hactive, hsettings.symm, hsize.symm, hmode.symm, hroot.symm, l, l', hl, hl', hmodel,
      hsimulation, hidle⟩

end Engine

end CallAtlas
