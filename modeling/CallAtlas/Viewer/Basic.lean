import CallAtlas.Engine.Basic
import CallAtlas.Panel

/-!
The viewer: the engine with what the user has typed, chosen, opened and taken in the hand.

At most one panel is open for a node. Selecting a node opens its panel, if the node has details.
-/

namespace CallAtlas

set_option autoImplicit false

/-- What a viewer starts with. -/
structure Startup (α : Type) where
  /-- The path of the payload. -/
  path : String
  settings : Settings α
  layout : LayoutMode
  metric : String

structure Viewer (α : Type) where
  engine : Engine α
  /-- The text of the search box. -/
  searchText : String
  /-- The id of the selected node. -/
  selected : Option String
  /-- The metrics to choose from. -/
  metricNames : List String
  /-- The node in the hand. -/
  dragging : Option Nat
  cascade : Cascade α
  panels : List (Panel α)

namespace Viewer

variable {α : Type} [Scalar α]

/-- The metrics of the graph and the one in use, sorted. -/
def metricChoices (e : Engine α) : List String :=
  CallGraph.sortedNames (e.model.graph.metricNames ++ [e.metric])

def start (startup : Startup α) (graph : GraphSpec) : Viewer α :=
  let engine := (((Engine.ofSettings startup.settings).setMetric startup.metric).setLayout startup.layout).load graph
  { engine := engine
    searchText := ""
    selected := none
    metricNames := metricChoices engine
    dragging := none
    cascade := .startingAt ⟨380.0, 90.0⟩
    panels := [] }

/-- Puts another graph in the place of the present one. The view, the search and the choices stay. -/
def replaceGraph (graph : GraphSpec) (v : Viewer α) : Viewer α :=
  let engine := v.engine.load graph
  { v with
    engine := engine
    selected := none
    metricNames := metricChoices engine
    dragging := none
    panels := [] }

/-! ## Selection and panels -/

/-- Whether a panel is open for a node. -/
def isShown (id : String) (v : Viewer α) : Bool := v.panels.any fun p => p.isOpen && p.title == id

/-- Opens a panel for a node, unless one is open or there is nothing to show. -/
def openPanel (id : String) (v : Viewer α) : Viewer α :=
  if v.isShown id then v
  else
    match v.engine.model.graph.details id with
    | some details =>
      let (panel, cascade) := v.cascade.openPanel details
      { v with cascade := cascade, panels := v.panels ++ [panel] }
    | none => v

/-- Selects a node or nothing. A node that is selected already is left as it is. -/
def select (id : Option String) (v : Viewer α) : Viewer α :=
  if v.selected = id then v
  else
    match id with
    | some id => { v with selected := some id }.openPanel id
    | none => { v with selected := none }

/-- Marks a panel as closed. -/
def closePanel (i : Nat) (v : Viewer α) : Viewer α :=
  { v with panels := v.panels.modify i fun p => { p with isOpen := false } }

/-- Drops the panels that have been closed. If that leaves none, nothing is selected any more. -/
def dropClosed (v : Viewer α) : Viewer α :=
  let left := v.panels.filter (·.isOpen)
  { v with
    panels := left
    selected := if left.isEmpty && !v.panels.isEmpty then none else v.selected }

/-! ## Time -/

def advance (seconds : α) (v : Viewer α) : Viewer α := { v with engine := (v.engine.advance seconds).1 }

end Viewer

end CallAtlas
