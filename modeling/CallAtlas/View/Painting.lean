import CallAtlas.Physics.Model
import CallAtlas.Search.Index
import CallAtlas.View.Palette
import CallAtlas.View.Viewport

/-!
What a frame shows, and which node lies under a point of it.

A frame is a list of marks in the order of painting: links, nodes, labels, and the overview on top. Later marks lie
over earlier ones.
-/

namespace CallAtlas

set_option autoImplicit false

variable {α : Type} [Scalar α]

/-- The small overview of the whole graph: a marker for every node and the frame of what is on screen. -/
structure Minimap (α : Type) where
  markers : List (Vec α)
  markerRadius : α
  /-- The visible region. -/
  viewport : Rect α

/-- The overview of a model seen through a transform on a canvas of the given size. -/
def Minimap.of (settings : MinimapSettings α) (m : Model α) (t : Transform α) (size : Vec α) : Minimap α :=
  let k := settings.scale
  { markers := m.bodies.toList.map fun b => b.pos * k
    markerRadius := settings.markerRadius
    viewport := Rect.ofMinSize (-t.shift * k) (size * k / t.scale) }

inductive Mark (α : Type) where
  | link (start stop : Vec α)
  | node (center : Vec α) (radius : α) (fill : Color) (highlighted : Bool)
  | label (anchor : Vec α) (text : String)
  | minimapMarker (center : Vec α) (radius : α)
  | minimapViewport (rect : Rect α)

namespace Painting

/-- The radius of a node in the world. -/
def nodeRadius : α := 8.0

/-- The gap between a node and its label on screen. -/
def labelGap : α := 4.0

/-- The marks of a model seen through a transform. -/
def marks (m : Model α) (t : Transform α) (metric : String) (search : Search) (minimap : Minimap α) : List (Mark α) :=
  let radius : α := nodeRadius * t.scale
  let places := m.bodies.map fun b => t.apply b.pos
  let nodes := List.finRange m.graph.size
  (m.graph.links.map fun l => .link (places.get l.source) (places.get l.target)) ++
    (nodes.map fun i =>
      .node (places.get i) radius (Palette.colorFor metric (m.graph.vertices.get i))
        (search.isMatch (m.graph.vertices.get i).id)) ++
    (nodes.map fun i => .label (places.get i + ⟨radius + labelGap, 0.0⟩) (m.graph.vertices.get i).id) ++
    (minimap.markers.map fun p => .minimapMarker p minimap.markerRadius) ++
    [.minimapViewport minimap.viewport]

/-- Whether a node covers a point of the world. -/
def covers (b : Body α) (world : Vec α) : Bool := decide ((b.pos - world).lengthSq ≤ nodeRadius * nodeRadius)

/-- The node on top at a point of the screen. -/
def nodeAt (m : Model α) (t : Transform α) (screen : Vec α) : Option (Fin m.graph.size) :=
  let world := t.invert screen
  (List.finRange m.graph.size).reverse.find? fun i => covers (m.bodies.get i) world

end Painting

end CallAtlas
