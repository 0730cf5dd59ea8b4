import CallAtlas.Engine.Basic

/-!
The operations of the engine as data, and runs of them.
-/

namespace CallAtlas

set_option autoImplicit false

inductive Operation (α : Type) where
  | load (graph : GraphSpec)
  | setLayout (mode : LayoutMode)
  | setRoot (root : Option String)
  | search (query : String)
  | setMetric (metric : String)
  | resize (size : Vec α)
  | panBy (delta : Vec α)
  | zoomAt (factor : α) (anchor : Vec α)
  | setTransform (transform : Transform α)
  | resetView
  | focusNode (id : String)
  | advance (seconds : α)
  | settle (limit : Nat)
  | beginDrag (screen : Vec α)
  | dragTo (node : Nat) (screen : Vec α)
  | endDrag (node : Nat)
  | nodeAt (screen : Vec α)
  | minimap
  | render

/-- What an operation answers. -/
inductive Reply (α : Type) where
  | done
  | flag (value : Bool)
  | count (value : Nat)
  | node (value : Option Nat)
  | minimap (value : Minimap α)
  | marks (value : List (Mark α))

namespace Engine

variable {α : Type} [Scalar α]

/-- Runs one operation. -/
def step (e : Engine α) : Operation α → Except Fault (Engine α × Reply α)
  | .load graph => pure (e.load graph, .done)
  | .setLayout mode => pure (e.setLayout mode, .done)
  | .setRoot root => pure (e.setRoot root, .done)
  | .search query => pure (e.startSearch query, .done)
  | .setMetric metric => pure (e.setMetric metric, .done)
  | .resize size => pure (e.resize size, .done)
  | .panBy delta => do pure (← e.changeView (Viewport.panBy delta), .done)
  | .zoomAt factor anchor => do pure (← e.changeView (Viewport.zoomAt factor anchor), .done)
  | .setTransform t => do pure (← e.changeView (Viewport.setTransform t), .done)
  | .resetView => do pure (← e.changeView fun v => pure v.reset, .done)
  | .focusNode id => do
    let (e, found) ← e.focusNode id
    pure (e, .flag found)
  | .advance seconds =>
    let (e, running) := e.advance seconds
    pure (e, .flag running)
  | .settle limit =>
    let (e, ticks) := e.settle limit
    pure (e, .count ticks)
  | .beginDrag screen =>
    let (e, node) := e.beginDrag screen
    pure (e, .node node)
  | .dragTo node screen => pure (e.dragTo node screen, .done)
  | .endDrag node => pure (e.endDrag node, .done)
  | .nodeAt screen => pure (e, .node (e.nodeAt screen))
  | .minimap => pure (e, .minimap e.minimap)
  | .render => pure (e, .marks e.marks)

/-- Runs operations one after the other. -/
def run (e : Engine α) : List (Operation α) → Except Fault (Engine α × List (Reply α))
  | [] => pure (e, [])
  | op :: ops => do
    let (e, reply) ← e.step op
    let (e, replies) ← e.run ops
    pure (e, reply :: replies)

end Engine

end CallAtlas
