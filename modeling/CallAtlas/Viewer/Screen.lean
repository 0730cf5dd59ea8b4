import CallAtlas.Viewer.Canvas
import CallAtlas.Viewer.Frame

/-!
What is on screen as text, and what a click on a text does.

The screen is a list of items in the order of drawing: the bar on top, the controls, the canvas, the windows of the
panels and the rows of an open box. Of two items with the same text the later one lies on top and takes the click.
-/

namespace CallAtlas

set_option autoImplicit false

/-- A box to choose from a list. -/
inductive Box where
  | layout
  | metric
deriving DecidableEq

/-- A part of a panel that can be folded. -/
inductive Section where
  | codeSmells
  | securityIssues
  | documentation
deriving DecidableEq

/-- Whether a section shows its content at first. -/
def Section.isOpenAtFirst : Section → Bool
  | .documentation => false
  | _ => true

inductive Action where
  | nothing
  | reload
  | retry
  | choose (choice : Choice)
  | openBox (box : Box)
  | fold (part : Section) (id : String)
  /-- A click on the canvas at a point of the screen. -/
  | clickCanvas (point : Vec Float32)

structure Item where
  text : String
  action : Action
  /-- The title of the panel that holds the item. -/
  panel : Option String

namespace Item

def label (text : String) : Item := ⟨text, .nothing, none⟩

def button (text : String) (action : Action) : Item := ⟨text, action, none⟩

end Item

/-- What the widgets remember from frame to frame. -/
structure Widgets where
  openBox : Option Box
  /-- The sections that are not as they were at first. -/
  folded : List (Section × String)
  /-- The titles of the panels, the one on top last. -/
  stack : List String

namespace Widgets

def atFirst : Widgets := ⟨none, [], []⟩

def isOpen (w : Widgets) (part : Section) (id : String) : Bool :=
  part.isOpenAtFirst != w.folded.contains (part, id)

def fold (part : Section) (id : String) (w : Widgets) : Widgets :=
  if w.folded.contains (part, id) then { w with folded := w.folded.filter (· ≠ (part, id)) }
  else { w with folded := (part, id) :: w.folded }

/-- Puts a panel on top. -/
def raise (title : String) (w : Widgets) : Widgets :=
  { w with stack := w.stack.filter (· ≠ title) ++ [title] }

/-- Takes over the panels that are open now. New ones come on top. -/
def restack (titles : List String) (w : Widgets) : Widgets :=
  let kept := w.stack.filter titles.contains
  { w with stack := kept ++ titles.filter fun title => !kept.contains title }

/-- What a click on an item does to the widgets. A click anywhere closes an open box. -/
def click (item : Item) (w : Widgets) : Widgets :=
  let w := match item.panel with
    | some title => w.raise title
    | none => w
  match item.action with
  | .openBox box => { w with openBox := some box }
  | .fold part id => { w.fold part id with openBox := none }
  | _ => { w with openBox := none }

end Widgets

/-! ## Items -/

namespace Screen

variable (v : Viewer Float32) (w : Widgets)

/-- How far the simulation has come. -/
def status : String :=
  let s := v.engine.simulation
  if s.running then "alpha " ++ Decimal.fixed 3 s.alpha else "settled"

def topBar (source : String) (loading : Bool) : List Item :=
  [.label "callgraph-lens", .label ("source: " ++ source), .label ("nodes: " ++ toString v.engine.model.size),
   .label ("links: " ++ toString v.engine.model.graph.links.length),
   .button "Reload graph" (if loading then .nothing else .reload),
   .label ("zoom " ++ Decimal.fixed 2 v.engine.transform.scale ++ "x"), .label (status v)]

def matchItems : List Item :=
  if v.engine.search.isActive then
    .label (toString v.engine.search.matched.length ++ " matching nodes") ::
      v.matchList.map fun id => .button id (.choose (.goTo id))
  else []

def controls : List Item :=
  [.label "Search", .label v.searchText] ++ matchItems v ++
    [.label "Layout", .button v.engine.mode.label (.openBox .layout),
     .label "Color", .button v.engine.metric (.openBox .metric),
     .label "0 ", .label " 10+",
     .label "View", .button "Zoom in" (.choose .zoomIn), .button "Zoom out" (.choose .zoomOut),
     .button "Reset view" (.choose .resetView),
     .label "Scroll to zoom, drag empty space with the right or middle button to pan."]

/-- The items of a section: its header and, unless it is folded, its lines. -/
def sectionItems (part : Section) (id title : String) (lines : List String) : List Item :=
  .button title (.fold part id) :: (if w.isOpen part id then lines.map .label else [])

def findingItems (part : Section) (id title : String) (findings : List Finding) : List Item :=
  if findings.isEmpty then []
  else
    sectionItems w part id (title ++ " (" ++ toString findings.length ++ ")") (findings.map Finding.summary)

def documentationLines (d : Documentation) : List String :=
  [d.docstring.getD "No docstring."] ++
    (if d.parameters.isEmpty then [] else ["Parameters: " ++ String.intercalate ", " d.parameters]) ++
    (d.returnType.toList.map fun type => "Returns: " ++ type)

def panelItems (d : NodeDetails) : List Item :=
  let documentation := match d.documentation with
    | some doc => sectionItems w .documentation d.id "Documentation" (documentationLines doc)
    | none => []
  let items := [.label d.id] ++ (d.file.toList.map fun file => .label ("File: " ++ file)) ++
    d.breadcrumbs.toList.map .label ++
    findingItems w .codeSmells d.id "Code smells" d.codeSmells ++
    findingItems w .securityIssues d.id "Security issues" d.securityIssues ++ documentation ++
    [.label (d.code.getD "No source recorded for this node.")]
  items.map fun item => { item with panel := some d.id }

/-- The items of all panels, those of the one on top last. -/
def panels : List Item :=
  w.stack.flatMap fun title => (v.panels.filter (·.title = title)).flatMap fun p => panelItems w p.details

/-- The rows of the box that is open. -/
def boxRows : List Item :=
  match w.openBox with
  | some .layout => LayoutMode.all.map fun mode => .button mode.label (.choose (.layout mode))
  | some .metric => v.metricNames.map fun name => .button name (.choose (.metric name))
  | none => []

/-- The texts of a picture. Those on the canvas do not take a click, the canvas does. -/
def pictureItems (p : Picture) : List Item :=
  p.notice.toList.map .label ++ p.labels.map fun (text, middle) => .button text (.clickCanvas middle)

/-- All items. While a graph is being loaded there is a note in the place of the picture. -/
def items (source : String) (picture : Option Picture) : List Item :=
  topBar v source picture.isNone ++ controls v ++
    (match picture with
     | some p => pictureItems p
     | none => [.label "Reloading call graph..."]) ++ panels v w ++ boxRows v w

end Screen

/-- The texts of items that are not empty, sorted. -/
def Item.texts (items : List Item) : List String :=
  ((items.map (·.text)).filter (· ≠ "")).mergeSort fun a b => decide (a ≤ b)

/-- The item on top among those with this text. -/
def Item.onTop? (text : String) (items : List Item) : Option Item := items.reverse.find? (·.text = text)

/-- What a click on an item makes the viewer do. -/
def Action.choices : Action → List Choice
  | .choose choice => [choice]
  | _ => []

/-- What a click on an item does on the canvas. A point beyond its border is not on the canvas. -/
def Action.gesture (canvas : Rect Float32) : Action → Gesture Float32
  | .clickCanvas point => if canvas.contains point then .clickAt point else .none
  | _ => .none

end CallAtlas
