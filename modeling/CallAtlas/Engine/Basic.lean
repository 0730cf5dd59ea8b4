import CallAtlas.Engine.Drag
import CallAtlas.Layout.Arrangement
import CallAtlas.Settings.Sanitize
import CallAtlas.View.Painting

/-!
The engine of the viewer: one graph with its layout, its simulation and the view of it.

The host hands over what happens, asks for a number of seconds to pass, and asks for the marks of a frame.
-/

namespace CallAtlas

set_option autoImplicit false

structure Engine (α : Type) where
  settings : Settings α
  model : Model α
  simulation : Simulation α
  mode : LayoutMode
  /-- The root for layouts to come. -/
  root : Option String
  viewport : Viewport α
  search : Search
  /-- The metric that nodes are colored by. -/
  metric : String
  drags : Drags α
  /-- Seconds that have passed and are not yet simulated. -/
  elapsed : α

namespace Engine

variable {α : Type} [Scalar α]

/-- An engine without a graph. Its settings are sanitized. -/
def ofSettings (settings : Settings α) : Engine α :=
  let settings := settings.sanitized
  { settings := settings
    model := .empty
    simulation := .ofSettings settings.simulation
    mode := .force
    root := settings.layout.root
    viewport := .ofSettings settings.viewport
    search := .none
    metric := Palette.standardMetric
    drags := .none settings.simulation.dragAlphaTarget
    elapsed := 0.0 }

/-! ## Graph and layout -/

def held (e : Engine α) : Held α := ⟨e.drags, e.model, e.simulation⟩

def withHeld (e : Engine α) (h : Held α) : Engine α :=
  { e with drags := h.drags, model := h.model, simulation := h.simulation }

def cancelDrags (e : Engine α) : Engine α := e.withHeld e.held.cancelAll

/-- Lays the graph out anew around the middle of the viewport. -/
def arrange (mode : LayoutMode) (e : Engine α) : Engine α :=
  let layout := { e.settings.layout with root := e.root }
  let (model, simulation) :=
    Arrangement.apply mode e.settings.simulation layout e.viewport.center e.model e.simulation
  { e with mode := mode, model := model, simulation := simulation }

/-- Replaces the graph. Places, pins and temperature start over; the view stays. -/
def load (graph : GraphSpec) (e : Engine α) : Engine α :=
  let g := CallGraph.ofSpec graph
  let e := e.cancelDrags
  let e := { e with
    model := (Model.ofGraph g).scatter e.viewport.center
    simulation := .ofSettings e.settings.simulation
    elapsed := 0.0
    search := e.search.refresh g }
  e.arrange e.mode

def setLayout (mode : LayoutMode) (e : Engine α) : Engine α := e.cancelDrags.arrange mode

/-- The root takes effect with the next layout. -/
def setRoot (root : Option String) (e : Engine α) : Engine α := { e with root := root }

/-! ## Search and color -/

def startSearch (query : String) (e : Engine α) : Engine α := { e with search := .start e.model.graph query }

def setMetric (metric : String) (e : Engine α) : Engine α := { e with metric := metric }

/-! ## View -/

def transform (e : Engine α) : Transform α := e.viewport.transform

/-- A new size of the canvas; the forces go on toward its middle. -/
def resize (size : Vec α) (e : Engine α) : Engine α :=
  if e.viewport.size == size then e
  else
    let viewport := e.viewport.resize size
    { e with viewport := viewport, simulation := e.simulation.retarget viewport.center }

/-- Changes the viewport. -/
def changeView (change : Viewport α → Except Fault (Viewport α)) (e : Engine α) : Except Fault (Engine α) := do
  let viewport ← change e.viewport
  pure { e with viewport := viewport }

/-- Brings a node to the middle of the view. The answer tells whether there is one with this id. -/
def focusNode (id : String) (e : Engine α) : Except Fault (Engine α × Bool) :=
  match e.model.graph.indexOf id with
  | some i => do
    let e ← e.changeView (Viewport.focus (e.model.bodies.get i).pos)
    pure (e, true)
  | none => pure (e, false)

/-! ## Time -/

/-- The length of a tick. -/
def tickSeconds : α := 1.0 / 60.0

/-- The time from which on a tick is due, a little less than its length. -/
def tickThreshold : α := tickSeconds * 0.999

def tick (e : Engine α) : Engine α :=
  let (simulation, model) := e.simulation.tick e.model
  { e with simulation := simulation, model := model }

/-- Runs the ticks that are due, at most `limit` of them. The answer tells whether the simulation still runs. -/
def runDue : Nat → Engine α → Engine α × Bool
  | 0, e => (e, true)
  | limit + 1, e =>
    if tickThreshold ≤ e.elapsed then
      let e := { e with elapsed := Scalar.larger (e.elapsed - tickSeconds) 0.0 }.tick
      if e.simulation.running then runDue limit e else ({ e with elapsed := 0.0 }, false)
    else (e, true)

/-- Lets some seconds pass. The answer tells whether the simulation still runs. -/
def advance (seconds : α) (e : Engine α) : Engine α × Bool :=
  if !e.simulation.running then ({ e with elapsed := 0.0 }, false)
  else if !Scalar.isFinite seconds || seconds ≤ 0.0 then (e, true)
  else
    let limit := e.settings.simulation.maxTicksPerFrame
    let elapsed := Scalar.smaller (e.elapsed + seconds) (tickSeconds * (limit : α))
    runDue limit { e with elapsed := elapsed }

/-- Counts the ticks after which the simulation still runs, up to `limit` more of them. -/
def settleFrom (count : Nat) : Nat → Engine α → Engine α × Nat
  | 0, e => (e, count)
  | limit + 1, e =>
    let e := e.tick
    if e.simulation.running then settleFrom (count + 1) limit e else (e, count)

/-- Runs until the simulation rests, for at most `limit` ticks. -/
def settle (limit : Nat) (e : Engine α) : Engine α × Nat := settleFrom 0 limit e

/-! ## Pointer -/

def nodeAt (screen : Vec α) (e : Engine α) : Option Nat :=
  (Painting.nodeAt e.model e.transform screen).map (·.val)

/-- Takes the node under the pointer, if there is one and it is not held. -/
def beginDrag (screen : Vec α) (e : Engine α) : Engine α × Option Nat :=
  match e.nodeAt screen with
  | some node =>
    match e.held.begin node (e.transform.invert screen) e.mode.isSimulated with
    | some h => (e.withHeld h, some node)
    | none => (e, none)
  | none => (e, none)

def dragTo (node : Nat) (screen : Vec α) (e : Engine α) : Engine α :=
  e.withHeld (e.held.moveTo node (e.transform.invert screen))

def endDrag (node : Nat) (e : Engine α) : Engine α := e.withHeld (e.held.finish node)

/-! ## Frames -/

def minimap (e : Engine α) : Minimap α := .of e.settings.minimap e.model e.transform e.viewport.size

def marks (e : Engine α) : List (Mark α) := Painting.marks e.model e.transform e.metric e.search e.minimap

end Engine

end CallAtlas
