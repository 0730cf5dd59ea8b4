import CallAtlas.Physics.QuadTree

/-!
The charge of the nodes on each other.

Every node acts on every other one, inversely to their distance. A region that is far away for its size acts as one
point with the mass of all its nodes; `sources` lists what acts on a node, single nodes and whole regions.
-/

namespace CallAtlas

set_option autoImplicit false

variable {α : Type} [Scalar α]

/-! ## Coincident points -/

/-- Stands in for the distance of points that coincide. -/
def coincidentDistance : α := 1e-3

/-- Points nearer than this, in squares, coincide. -/
def coincidentSq : α := coincidentDistance * coincidentDistance

/-- The direction from one of two coincident nodes to the other: some unit vector that depends on their numbers, and
the opposite one if they are swapped. -/
def fallbackDirection (i j : Nat) : Vec α :=
  let low : α := (min i j : Nat)
  let high : α := (max i j : Nat)
  let direction : Vec α := Vec.unit ((low * 0.618034 + high * 0.414214) * 6.28318548)
  if i ≤ j then direction else -direction

/-- The displacement from one of two coincident nodes to the other. -/
def fallbackDelta (i j : Nat) : Vec α := (fallbackDirection i j : Vec α) * (coincidentDistance : α)

namespace Charge

variable {n : Nat}

/-! ## What acts on a node -/

/-- Squares of distances below this are softened. -/
def minDistanceSq : α := 1.0

inductive Source (α : Type) (n : Nat) where
  | node (j : Fin n)
  | region (r : Region α)

/-- Square of the distance from a point to the mean of a region, at least `minDistanceSq`. -/
def regionDistanceSq (r : Region α) (point : Vec α) : α :=
  Scalar.larger (r.center - point).lengthSq minDistanceSq

/-- Whether a region acts on a point as one mass: the point is outside and the region looks small from there. -/
def actsAsOne (theta : α) (r : Region α) (point : Vec α) : Bool :=
  !r.cell.contains point && decide (r.cell.sideLength / Scalar.sqrt (regionDistanceSq r point) < theta) &&
    decide (1.0 < r.mass)

/-- What acts on node `i`. -/
def sources (theta : α) (positions : Vector (Vec α) n) (i : Fin n) : QuadTree α n → List (Source α n)
  | .empty => []
  | .leaf _ members => (members.filter (· ≠ i)).map .node
  | .branch region a b c d =>
    if actsAsOne theta region (positions.get i) then [.region region]
    else
      sources theta positions i a ++ sources theta positions i b ++ sources theta positions i c ++
        sources theta positions i d

/-! ## How it acts -/

/-- The change of velocity of node `i` at `point` under node `j` at `other`. -/
def between (strength : α) (point other : Vec α) (i j : Nat) : Vec α :=
  let apart := other - point
  let coincide := decide (apart.lengthSq < (coincidentSq : α))
  let delta := if coincide then fallbackDelta i j else apart
  let distanceSq := if coincide then coincidentSq else apart.lengthSq
  let softened := if distanceSq < minDistanceSq then Scalar.sqrt (minDistanceSq * distanceSq) else distanceSq
  delta * (strength / softened)

/-- The change of velocity of node `i` under one source. -/
def effect (strength : α) (positions : Vector (Vec α) n) (i : Fin n) : Source α n → Vec α
  | .node j => between strength (positions.get i) (positions.get j) i j
  | .region r => (r.center - positions.get i) * (strength * r.mass / regionDistanceSq r (positions.get i))

/-- The velocity of node `i` after everything has acted on it. -/
def accumulate (strength theta : α) (positions : Vector (Vec α) n) (tree : QuadTree α n) (i : Fin n)
    (velocity : Vec α) : Vec α :=
  (sources theta positions i tree).foldl (fun v source => v + effect strength positions i source) velocity

end Charge

end CallAtlas
