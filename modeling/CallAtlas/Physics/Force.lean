import CallAtlas.Physics.Model
import CallAtlas.Physics.Collision

/-!
The forces of a layout and what each does to the bodies of a graph.

Link, charge, collision and ring forces change velocities; the center force moves all nodes at once.
-/

namespace CallAtlas

set_option autoImplicit false

/-! ## Forces -/

/-- Draws linked nodes to a set distance. -/
structure LinkForce (α : Type) where
  distance : α

/-- Negative strengths repel. -/
structure ChargeForce (α : Type) where
  strength : α
  theta : α

/-- Moves the mean of all nodes toward a point. -/
structure CenterForce (α : Type) where
  target : Vec α
  strength : α

structure CollisionForce (α : Type) where
  radius : α
  strength : α
  iterations : Nat

/-- Draws each node to a ring of its own radius. -/
structure RadialForce (α : Type) where
  center : Vec α
  strength : α
  radii : List α

structure ForceSet (α : Type) where
  link : Option (LinkForce α)
  charge : Option (ChargeForce α)
  center : Option (CenterForce α)
  collision : Option (CollisionForce α)
  radial : Option (RadialForce α)

namespace ForceSet

variable {α : Type}

def none : ForceSet α := ⟨.none, .none, .none, .none, .none⟩

/-- Moves the point that the center and the ring force are about. -/
def retarget (center : Vec α) (forces : ForceSet α) : ForceSet α :=
  { forces with
    center := forces.center.map fun f => { f with target := center }
    radial := forces.radial.map fun f => { f with center := center } }

end ForceSet

/-! ## Effects -/

variable {α : Type} [Scalar α] {n : Nat}

/-- One step of the link force: both ends of a link are corrected along it, the end with fewer links more. -/
def LinkForce.applyTo (force : LinkForce α) (alpha : α) (degrees : Vector Nat n)
    (bodies : Vector (Body α) n) (link : Link n) : Vector (Body α) n :=
  if link.isLoop then bodies
  else
    let i := link.source
    let j := link.target
    let degree (k : Fin n) : α := (max (degrees.get k) 1 : Nat)
    let strength := 1.0 / Scalar.smaller (degree i) (degree j)
    let bias := degree i / (degree i + degree j)
    let apart := ((bodies.get j).pos + (bodies.get j).velocity) - ((bodies.get i).pos + (bodies.get i).velocity)
    let delta := if apart.lengthSq < coincidentSq then fallbackDelta i j else apart
    let length := delta.length
    let correction := delta * ((length - force.distance) / length * alpha * strength)
    let bodies := bodies.set j { bodies.get j with velocity := (bodies.get j).velocity - correction * bias } j.isLt
    bodies.set i { bodies.get i with velocity := (bodies.get i).velocity + correction * (1.0 - bias) } i.isLt

def LinkForce.apply (force : LinkForce α) (alpha : α) (graph : CallGraph) (bodies : Vector (Body α) graph.size) :
    Vector (Body α) graph.size :=
  graph.links.foldl (force.applyTo alpha graph.degrees) bodies

/-- Positions that are not all finite leave the velocities as they are. -/
def ChargeForce.apply (force : ChargeForce α) (alpha : α) (bodies : Vector (Body α) n) : Vector (Body α) n :=
  let positions := bodies.map (·.pos)
  match QuadTree.build positions with
  | some tree =>
    Vector.ofFn fun i =>
      { bodies.get i with
        velocity := Charge.accumulate (force.strength * alpha) force.theta positions tree i (bodies.get i).velocity }
  | none => bodies

/-- One round of pushing apart, by the places where the nodes are heading. There is none if these are not all
finite. -/
def CollisionForce.round? (force : CollisionForce α) (bodies : Vector (Body α) n) : Option (Vector (Body α) n) :=
  let positions := bodies.map fun b => b.pos + b.velocity
  (QuadTree.build positions).map fun tree =>
    let impulses := Collision.impulses fallbackDirection force.radius force.strength positions tree
    Vector.ofFn fun i => { bodies.get i with velocity := (bodies.get i).velocity + impulses.get i }

/-- At most so many rounds; the first one that cannot be made ends them. -/
def CollisionForce.rounds (force : CollisionForce α) : Nat → Vector (Body α) n → Vector (Body α) n
  | 0, bodies => bodies
  | k + 1, bodies =>
    match force.round? bodies with
    | some pushed => force.rounds k pushed
    | none => bodies

def CollisionForce.apply (force : CollisionForce α) (bodies : Vector (Body α) n) : Vector (Body α) n :=
  if 0.0 < force.radius then force.rounds force.iterations bodies else bodies

/-- The number that stands for the center of the rings where a direction from it is needed. -/
def ringCenterNumber : Nat := 18446744073709551615

/-- A node for which there is no radius is left alone. -/
def RadialForce.apply (force : RadialForce α) (alpha : α) (bodies : Vector (Body α) n) : Vector (Body α) n :=
  Vector.ofFn fun i =>
    match force.radii[i.val]? with
    | some target =>
      let apart := (bodies.get i).pos - force.center
      let delta := if apart.lengthSq < coincidentSq then fallbackDelta i ringCenterNumber else apart
      let radius := delta.length
      { bodies.get i with
        velocity := (bodies.get i).velocity + delta * ((target - radius) * force.strength * alpha / radius) }
    | none => bodies.get i

def CenterForce.apply (force : CenterForce α) (bodies : Vector (Body α) n) : Vector (Body α) n :=
  let shift := (Model.mean (bodies.map (·.pos)) - force.target) * force.strength
  bodies.map fun b => { b with pos := b.pos - shift }

/-- All forces in turn: links, charge, collisions, rings, center. -/
def ForceSet.apply (forces : ForceSet α) (alpha : α) (m : Model α) : Model α :=
  if m.isEmpty then m
  else
    let bodies := m.bodies
    let bodies := (forces.link.map fun f => f.apply alpha m.graph bodies).getD bodies
    let bodies := (forces.charge.map fun f => f.apply alpha bodies).getD bodies
    let bodies := (forces.collision.map fun f => f.apply bodies).getD bodies
    let bodies := (forces.radial.map fun f => f.apply alpha bodies).getD bodies
    let bodies := (forces.center.map fun f => f.apply bodies).getD bodies
    m.withBodies bodies

end CallAtlas
