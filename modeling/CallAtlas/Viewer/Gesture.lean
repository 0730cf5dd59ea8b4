import CallAtlas.Viewer.Basic

/-!
What the pointer does on the canvas.

Scrolling zooms about the pointer. A drag with the primary button that starts on a node carries the node; any other
drag moves the view. A click selects the node under the pointer, or nothing.
-/

namespace CallAtlas

set_option autoImplicit false

inductive Button where
  | primary
  | secondary
  | middle
deriving DecidableEq

inductive DragPhase where
  | starts
  | continues
  | stops
deriving DecidableEq

/-- What is known of the pointer in one frame. Points are points of the screen. -/
structure Gesture (α : Type) where
  /-- Whether the pointer is over the canvas and nothing lies between. -/
  hovered : Bool
  scroll : α
  /-- Where the pointer is. -/
  hover : Option (Vec α)
  /-- The buttons that are down. -/
  down : List Button
  /-- Where the pointer was when the button went down. -/
  press : Option (Vec α)
  /-- Where the pointer is, for the one who reacts to it. -/
  pointer : Option (Vec α)
  /-- How far a drag has gone since the last frame. -/
  delta : Vec α
  drag : Option DragPhase
  /-- The button of a click. -/
  click : Option Button

namespace Gesture

variable {α : Type} [Scalar α]

/-- Nothing happens. -/
def none : Gesture α := ⟨false, 0.0, .none, [], .none, .none, .zero, .none, .none⟩

/-- A click at a point. -/
def clickAt (point : Vec α) : Gesture α :=
  { (none : Gesture α) with hovered := true, hover := some point, pointer := some point, click := some .primary }

/-- Whether a drag with this button starts. -/
def startsDrag (g : Gesture α) (b : Button) : Bool := g.drag == some .starts && g.down.contains b

/-- Whether a drag with this button is going on, its first frame included. -/
def isDraggedBy (g : Gesture α) (b : Button) : Bool :=
  (g.drag == some .starts || g.drag == some .continues) && g.down.contains b

def stopsDrag (g : Gesture α) : Bool := g.drag == some .stops

/-- A change of scroll that is not more than this is none. -/
def leastScroll : α := 1.1920928955078125e-7

/-- The factor of zooming by one frame of scrolling. -/
def zoomFactor (g : Gesture α) : α := Scalar.clamp 0.85 1.15 (1.0 + g.scroll * 0.0018)

end Gesture

namespace Viewer

variable {α : Type} [Scalar α]

def zoomBy (canvas : Rect α) (g : Gesture α) (v : Viewer α) : Except Fault (Viewer α) :=
  if !g.hovered || Scalar.abs g.scroll ≤ Gesture.leastScroll then .ok v
  else do
    let anchor := g.hover.getD canvas.center - canvas.min
    let engine ← v.engine.changeView (Viewport.zoomAt g.zoomFactor anchor)
    pure { v with engine := engine }

/-- Takes the node on which a drag with the primary button starts, judged by where the button went down. -/
def grab (canvas : Rect α) (g : Gesture α) (v : Viewer α) : Viewer α :=
  if g.startsDrag .primary then
    match g.press <|> g.pointer with
    | some point =>
      let (engine, node) := v.engine.beginDrag (point - canvas.min)
      { v with engine := engine, dragging := node }
    | none => v
  else v

/-- Carries the node in the hand, or lets it go. -/
def carry (canvas : Rect α) (g : Gesture α) (v : Viewer α) : Viewer α :=
  match v.dragging with
  | none => v
  | some node =>
    if g.stopsDrag then { v with engine := v.engine.endDrag node, dragging := none }
    else
      match g.pointer with
      | some point => { v with engine := v.engine.dragTo node (point - canvas.min) }
      | none => v

def panBy (g : Gesture α) (v : Viewer α) : Except Fault (Viewer α) :=
  if (v.dragging.isNone && g.isDraggedBy .primary) || g.isDraggedBy .secondary || g.isDraggedBy .middle then do
    let engine ← v.engine.changeView (Viewport.panBy g.delta)
    pure { v with engine := engine }
  else .ok v

/-- The id of the node under a point of the canvas. -/
def idAt (point : Vec α) (v : Viewer α) : Option String :=
  let e := v.engine
  (Painting.nodeAt e.model e.transform point).map fun i => (e.model.graph.vertices.get i).id

def clickAt (canvas : Rect α) (g : Gesture α) (v : Viewer α) : Viewer α :=
  if g.click == some .primary then
    match g.pointer with
    | some point => v.select (v.idAt (point - canvas.min))
    | none => v
  else v

/-- All that a gesture does, in this order: zooming, dragging, panning, clicking. -/
def gesture (canvas : Rect α) (g : Gesture α) (v : Viewer α) : Except Fault (Viewer α) := do
  let v ← v.zoomBy canvas g
  let v ← ((v.grab canvas g).carry canvas g).panBy g
  pure (v.clickAt canvas g)

end Viewer

end CallAtlas
