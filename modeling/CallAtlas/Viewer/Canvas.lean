import CallAtlas.Number.Binary32.Sine
import CallAtlas.Number.Decimal
import CallAtlas.Viewer.Basic

/-!
The picture on the canvas: a grid that moves with the view, the minimap in the lower right corner, the graph, a ring
around the selected node and a line of text about the node under the pointer.

Every shape has the rectangle beyond which it is cut off.
-/

namespace CallAtlas

set_option autoImplicit false

structure Stroke where
  width : Float32
  color : Color

inductive Shape where
  | line (start stop : Vec Float32) (stroke : Stroke)
  | circle (center : Vec Float32) (radius : Float32) (fill : Color) (stroke : Stroke)
  | rect (rect : Rect Float32) (fill : Color) (stroke : Stroke)
  /-- A line of text from its left edge on, which is given at half the height of the line. -/
  | text (left : Vec Float32) (size : Float32) (color : Color) (text : String)

structure Drawn where
  shape : Shape
  clip : Rect Float32

structure Picture where
  shapes : List Drawn
  /-- Whether the pointer shows that it is over a node. -/
  pointing : Bool
  /-- What is said below the canvas. -/
  notice : Option String

namespace Picture

def clear : Color := ⟨0, 0, 0, 0⟩

def noStroke : Stroke := ⟨0.0, clear⟩

/-! ## Colors

The channels of a color that lets others through are scaled by its opacity. -/

def backgroundColor : Color := .rgb 19 23 29

def gridColor : Color := ⟨16, 19, 22, 70⟩

def minimapColor : Color := ⟨11, 12, 16, 225⟩

def minimapBorderColor : Color := .gray 90

def linkColor : Color := ⟨110, 118, 128, 170⟩

def highlightColor : Color := .rgb 255 99 71

def outlineColor : Color := ⟨15, 15, 15, 190⟩

def labelColor : Color := .gray 232

def markerColor : Color := .rgb 150 180 220

def selectedColor : Color := .rgb 245 206 93

def hoverColor : Color := .gray 240

/-! ## Background -/

/-- Places in equal steps from `x` on, before `stop`; at most as many as asked for. -/
def placesBefore (step stop : Float32) : Nat → Float32 → List Float32
  | 0, _ => []
  | limit + 1, x => if x < stop then x :: placesBefore step stop limit (x + step) else []

/-- More lines than this are not drawn in one direction. -/
def maxGridLines : Nat := 65536

/-- The distance of two lines of the grid. -/
def gridStep (scale : Float32) : Float32 := Scalar.larger (56.0 * Scalar.clamp 0.6 1.8 scale) 20.0

/-- The places of the lines of the grid between two borders; one of them goes through `origin` or would. -/
def gridPlaces (scale origin low high : Float32) : List Float32 :=
  let step := gridStep scale
  placesBefore step high maxGridLines (low + Binary32.euclideanRemainder (origin - low) step)

def background (canvas : Rect Float32) (t : Transform Float32) : List Shape :=
  let origin := canvas.min + t.shift
  let stroke : Stroke := ⟨1.0, gridColor⟩
  [.rect canvas backgroundColor noStroke] ++
    ((gridPlaces t.scale origin.x canvas.min.x canvas.max.x).map fun x =>
      .line ⟨x, canvas.min.y⟩ ⟨x, canvas.max.y⟩ stroke) ++
    ((gridPlaces t.scale origin.y canvas.min.y canvas.max.y).map fun y =>
      .line ⟨canvas.min.x, y⟩ ⟨canvas.max.x, y⟩ stroke)

/-! ## Graph -/

/-- The distance of the minimap from the borders of the canvas. -/
def minimapMargin : Float32 := 12.0

def minimapRect (canvas : Rect Float32) (e : Engine Float32) : Rect Float32 :=
  let size := e.viewport.size * e.settings.minimap.scale
  .ofMinSize (canvas.max - size - ⟨minimapMargin, minimapMargin⟩) size

def minimapFrame (rect : Rect Float32) : List Shape :=
  [.rect rect minimapColor noStroke, .rect rect clear ⟨1.0, minimapBorderColor⟩]

def linkWidth (scale : Float32) : Float32 := Scalar.clamp 0.6 3.0 (1.2 * scale.sqrt)

def labelSize (scale : Float32) : Float32 := Scalar.clamp 9.0 18.0 (12.0 * scale.sqrt)

/-- Below this scale there are no labels. -/
def leastLabelScale : Float32 := 0.45

/-- The shapes of a mark, with their clip. Marks of the minimap are placed on it, all others on the canvas; what lies
outside the canvas is cut off in any case. An empty label is not drawn. -/
def shapesOf (canvas minimap : Rect Float32) (scale : Float32) : Mark Float32 → List Drawn
  | .link start stop =>
    [⟨.line (start + canvas.min) (stop + canvas.min) ⟨linkWidth scale, linkColor⟩, canvas⟩]
  | .node center radius fill highlighted =>
    let center := center + canvas.min
    let stroke : Stroke := if highlighted then ⟨2.5, highlightColor⟩ else ⟨1.0, outlineColor⟩
    [⟨.circle center radius fill noStroke, canvas⟩, ⟨.circle center radius clear stroke, canvas⟩]
  | .label anchor text =>
    if scale < leastLabelScale ∨ text = "" then []
    else [⟨.text (anchor + canvas.min) (labelSize scale) labelColor text, canvas⟩]
  | .minimapMarker center radius =>
    [⟨.circle (center + minimap.min) radius markerColor noStroke, minimap.intersect canvas⟩]
  | .minimapViewport rect =>
    [⟨.rect (rect.moveBy minimap.min) clear ⟨1.5, highlightColor⟩, minimap.intersect canvas⟩]

/-- The ring around the selected node. -/
def selectionRing (canvas : Rect Float32) (v : Viewer Float32) : List Shape :=
  match v.selected.bind v.engine.model.graph.indexOf with
  | some i =>
    let t := v.engine.transform
    [.circle (t.apply (v.engine.model.bodies.get i).pos + canvas.min) (Painting.nodeRadius * t.scale + 4.0) clear
      ⟨2.0, selectedColor⟩]
  | none => []

/-- What is said about the node under the pointer. -/
def hoverText (e : Engine Float32) (i : Fin e.model.graph.size) : String :=
  let vertex := e.model.graph.vertices.get i
  vertex.id ++ "  |  " ++ e.metric ++ " " ++ Decimal.plain (vertex.metric e.metric) ++
    "  |  links " ++ toString (e.model.graph.degree i)

/-- The node under the pointer, if the pointer is over the canvas. -/
def hoveredNode (canvas : Rect Float32) (hover : Option (Vec Float32)) (e : Engine Float32) :
    Option (Fin e.model.graph.size) :=
  match hover with
  | some point => if canvas.contains point then Painting.nodeAt e.model e.transform (point - canvas.min) else none
  | none => none

/-- The size of the text about the node under the pointer. -/
def hoverSize : Float32 := 13.0

/-- What is said of a graph without nodes. -/
def emptyNotice : String := "The loaded payload has no nodes."

/-- The distance of the notice from the canvas above it. -/
def noticeGap : Float32 := 3.0

/-- The picture of a viewer on a canvas. The screen goes on for `room` below the canvas. -/
def of (canvas : Rect Float32) (room : Float32) (hover : Option (Vec Float32)) (v : Viewer Float32) : Picture :=
  let e := v.engine
  let onCanvas (shapes : List Shape) : List Drawn := shapes.map fun shape => ⟨shape, canvas⟩
  let ground := onCanvas (background canvas e.transform)
  if e.model.isEmpty then ⟨ground, false, if noticeGap < room then some emptyNotice else none⟩
  else
    let minimap := minimapRect canvas e
    let hovered := hoveredNode canvas hover e
    let about := match hovered with
      | some i => [Shape.text (canvas.min + ⟨10.0, 10.0 + hoverSize * 0.5⟩) hoverSize hoverColor (hoverText e i)]
      | none => []
    { shapes :=
        ground ++ onCanvas (minimapFrame minimap) ++ e.marks.flatMap (shapesOf canvas minimap e.transform.scale) ++
          onCanvas (selectionRing canvas v ++ about)
      pointing := hovered.isSome
      notice := none }

/-- The middle of a line of text. A letter is taken to be half as wide as the line is high. -/
def middleOf (left : Vec Float32) (size : Float32) (text : String) : Vec Float32 :=
  left + ⟨size * 0.25 * Float32.ofNat text.length, 0.0⟩

/-- The texts on the canvas with their middles, in the order of drawing. -/
def labels (p : Picture) : List (String × Vec Float32) :=
  p.shapes.filterMap fun d =>
    match d.shape with
    | .text left size _ text => some (text, middleOf left size text)
    | _ => none

end Picture

end CallAtlas
