import CallAtlas.Layout.Mode
import CallAtlas.Layout.Root
import CallAtlas.Layout.Tree
import CallAtlas.Physics.Simulation

/-!
Bringing a model into a layout: the forces of the mode, and places or a fresh start of the simulation.
-/

namespace CallAtlas

set_option autoImplicit false

variable {α : Type} [Scalar α]

namespace Arrangement

def charge (s : SimulationSettings α) : ChargeForce α := ⟨s.chargeStrength, s.theta⟩

def collision (s : SimulationSettings α) : CollisionForce α :=
  ⟨s.collisionRadius, s.collisionStrength, s.collisionIterations⟩

/-- The radii of the rings of all nodes. -/
def radii (layout : LayoutSettings α) (g : CallGraph) : List α :=
  (g.resolveDepths (g.resolveRoot layout.root)).toList.map fun (depth : Nat) => (depth : α) * layout.radialRingSpacing

/-- The forces of a mode around a center. -/
def forces (mode : LayoutMode) (simulation : SimulationSettings α) (layout : LayoutSettings α) (g : CallGraph)
    (center : Vec α) : ForceSet α :=
  match mode with
  | .force =>
    { link := some ⟨simulation.linkDistance⟩
      charge := some (charge simulation)
      center := some ⟨center, simulation.centerStrength⟩
      collision := some (collision simulation)
      radial := none }
  | .hierarchical => .none
  | .radial =>
    { link := some ⟨layout.radialLinkDistance⟩
      charge := some (charge simulation)
      center := none
      collision := some (collision simulation)
      radial := some ⟨center, layout.radialStrength, radii layout g⟩ }

def stopped (m : Model α) : Model α := m.mapBodies fun b => { b with velocity := .zero }

/-- The nodes in rows, see `CallGraph.treePositions`. -/
def inRows (layout : LayoutSettings α) (center : Vec α) (m : Model α) : Model α :=
  let places := m.graph.treePositions (m.graph.resolveRoot layout.root) center layout.treeBreadthSpacing
    layout.treeLevelSpacing
  m.withBodies (Vector.ofFn fun i => { m.bodies.get i with pos := places.get i })

/-- Brings a model into a mode. All nodes stop; in rows they stay where they are put, and otherwise the simulation
starts over with them. -/
def apply (mode : LayoutMode) (simulation : SimulationSettings α) (layout : LayoutSettings α) (center : Vec α)
    (m : Model α) (s : Simulation α) : Model α × Simulation α :=
  let s := s.setForces (forces mode simulation layout m.graph center)
  if mode.isSimulated then (stopped m, s.restart 1.0) else (inRows layout center (stopped m), s.stop)

end Arrangement

end CallAtlas
