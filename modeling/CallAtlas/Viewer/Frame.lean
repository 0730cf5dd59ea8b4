import CallAtlas.Viewer.Gesture

/-!
One frame of the viewer: the controls first, then the canvas, if it is on screen, and the panels at last.
-/

namespace CallAtlas

set_option autoImplicit false

/-- What is done with the controls. -/
inductive Choice where
  /-- The search box now holds this text. -/
  | search (text : String)
  /-- A node is picked from the list of matches. -/
  | goTo (id : String)
  | layout (mode : LayoutMode)
  | metric (name : String)
  | zoomIn
  | zoomOut
  | resetView

/-- The canvas in one frame. -/
structure CanvasInput (α : Type) where
  /-- Where the canvas is on screen. -/
  rect : Rect α
  gesture : Gesture α
  /-- The seconds since the last frame. -/
  seconds : α

/-- What happens to a viewer in one frame. -/
structure FrameInput (α : Type) where
  choices : List Choice
  /-- Nothing while the canvas is not on screen. -/
  canvas : Option (CanvasInput α)
  /-- The panels whose windows are closed. -/
  closed : List Nat

/-- What happens to a viewer in the long run. -/
inductive ViewerEvent (α : Type) where
  | frame (input : FrameInput α)
  | replaceGraph (graph : GraphSpec)

namespace Viewer

variable {α : Type} [Scalar α]

/-- The factor of one step of zooming. -/
def zoomStep : α := 1.25

/-- Zooms about the middle of the view. -/
def zoomAtCenter (factor : α) (v : Viewer α) : Except Fault (Viewer α) := do
  let engine ← v.engine.changeView (Viewport.zoomAt factor v.engine.viewport.center)
  pure { v with engine := engine }

/-- The longest list of matches that is shown. -/
def maxMatches : Nat := 40

/-- The best matches of the search. -/
def matchList (v : Viewer α) : List String :=
  if v.engine.search.isActive then v.engine.search.ranked maxMatches else []

/-- The text of the search box after typing at its end. The box has one line: a line break alone types nothing. -/
def typed (text : String) (v : Viewer α) : String :=
  if text = "\n" ∨ text = "\r" then v.searchText else v.searchText ++ text

/-- Follows a choice. What is not on offer cannot be chosen, and the present layout is not laid out anew. -/
def choose (v : Viewer α) : Choice → Except Fault (Viewer α)
  | .search text => pure { v with searchText := text, engine := v.engine.startSearch text }
  | .goTo id =>
    if v.matchList.contains id then do
      let (engine, _) ← v.engine.focusNode id
      pure ({ v with engine := engine }.select (some id))
    else pure v
  | .layout mode =>
    if mode = v.engine.mode then pure v
    else pure { v with dragging := none, engine := v.engine.setLayout mode }
  | .metric name =>
    if v.metricNames.contains name then pure { v with engine := v.engine.setMetric name } else pure v
  | .zoomIn => v.zoomAtCenter zoomStep
  | .zoomOut => v.zoomAtCenter (1.0 / zoomStep)
  | .resetView => do
    let engine ← v.engine.changeView fun w => pure w.reset
    pure { v with engine := engine }

/-- Fits the view to the canvas, follows the gesture and lets time pass. -/
def runCanvas (input : CanvasInput α) (v : Viewer α) : Except Fault (Viewer α) := do
  let v ← { v with engine := v.engine.resize input.rect.size }.gesture input.rect input.gesture
  pure (v.advance input.seconds)

def frame (input : FrameInput α) (v : Viewer α) : Except Fault (Viewer α) := do
  let v ← input.choices.foldlM choose v
  let v ←
    match input.canvas with
    | some canvas => v.runCanvas canvas
    | none => pure v
  pure (input.closed.foldl (fun v i => v.closePanel i) v).dropClosed

def step (v : Viewer α) : ViewerEvent α → Except Fault (Viewer α)
  | .frame input => v.frame input
  | .replaceGraph graph => pure (v.replaceGraph graph)

/-- Runs events one after the other. -/
def run (v : Viewer α) (events : List (ViewerEvent α)) : Except Fault (Viewer α) := events.foldlM step v

end Viewer

end CallAtlas
