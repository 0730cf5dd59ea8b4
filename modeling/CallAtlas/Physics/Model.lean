import CallAtlas.Geometry.Vec
import CallAtlas.Graph.CallGraph

/-!
A graph whose nodes have places. What moves, the bodies, is kept apart from the graph itself, which does not change
as long as no other graph is loaded.
-/

namespace CallAtlas

set_option autoImplicit false

variable {α : Type}

/-- The moving part of a node. -/
structure Body (α : Type) where
  pos : Vec α
  velocity : Vec α
  /-- Where the node is held, if it is. -/
  pin : Option (Vec α)

structure Model (α : Type) where
  graph : CallGraph
  bodies : Vector (Body α) graph.size

namespace Model

def size (m : Model α) : Nat := m.graph.size

def isEmpty (m : Model α) : Bool := m.graph.isEmpty

/-- The same graph with other bodies. -/
def withBodies (m : Model α) (bodies : Vector (Body α) m.graph.size) : Model α := ⟨m.graph, bodies⟩

@[simp] theorem withBodies_graph (m : Model α) (bodies : Vector (Body α) m.graph.size) :
    (m.withBodies bodies).graph = m.graph := rfl

/-- The body of a node, if there is a node of that number. -/
def body? (m : Model α) (i : Nat) : Option (Body α) := m.bodies[i]?

def mapBodies (f : Body α → Body α) (m : Model α) : Model α := m.withBodies (m.bodies.map f)

/-- Changes the body of one node. A number that is no node's changes nothing. -/
def modifyBody (i : Nat) (f : Body α → Body α) (m : Model α) : Model α :=
  if h : i < m.graph.size then m.withBodies (m.bodies.set i (f (m.bodies.get ⟨i, h⟩)) h) else m

variable [Scalar α]

/-- All nodes at rest at the origin. -/
def ofGraph (graph : CallGraph) : Model α := ⟨graph, Vector.replicate _ ⟨.zero, .zero, none⟩⟩

def empty : Model α := ofGraph .empty

/-- The turn from one node of the spiral to the next, the golden angle. -/
def goldenAngle : α := 3.14159274 * (3.0 - Scalar.sqrt 5.0)

/-- The place of a node on the spiral around `center`. -/
def spiralPoint (center : Vec α) (i : Nat) : Vec α :=
  let radius : α := 10.0 * Scalar.sqrt (0.5 + (i : α))
  center + Vec.unit ((i : α) * goldenAngle) * radius

/-- Puts the nodes on a spiral around `center`, free and at rest. -/
def scatter (center : Vec α) (m : Model α) : Model α :=
  m.withBodies (Vector.ofFn fun i => ⟨spiralPoint center i, .zero, none⟩)

def positions (m : Model α) : Vector (Vec α) m.graph.size := m.bodies.map (·.pos)

/-- The sum of places divided by their number. -/
def mean {n : Nat} (points : Vector (Vec α) n) : Vec α := points.foldl (· + ·) .zero / (n : α)

def centroid (m : Model α) : Vec α := if m.isEmpty then .zero else mean m.positions

end Model

end CallAtlas
