import CallAtlas.Geometry.Vec

/-!
Region trees over numbered points of the plane.

A square cell with more than eight points is cut into its four quarters, down to twelve levels, as long as its
points do not all fall into one of them. A cell that is not cut is a leaf and lists its points. Every cell knows how
many points lie in it and where their mean is.
-/

namespace CallAtlas

set_option autoImplicit false

variable {α : Type} [Scalar α]

/-! ## Cells -/

/-- A square with sides along the axes. -/
structure Cell (α : Type) where
  center : Vec α
  /-- Half the length of a side. -/
  half : α

namespace Cell

/-- A square around the given points with some room to spare, if there are points and all are finite. -/
def around : List (Vec α) → Option (Cell α)
  | [] => none
  | first :: rest =>
    if (first :: rest).all Vec.isFinite then
      let low := rest.foldl Vec.smaller first
      let high := rest.foldl Vec.larger first
      let span := (high - low).larger ⟨1.0, 1.0⟩
      some ⟨(low + high) * (0.5 : α), span.maxComponent * 0.5 + 1.0⟩
    else none

def contains (c : Cell α) (p : Vec α) : Bool :=
  let offset := (p - c.center).abs
  decide (offset.x ≤ c.half) && decide (offset.y ≤ c.half)

/-- One of the four quarters of a cell. -/
structure Quadrant where
  right : Bool
  lower : Bool
deriving DecidableEq

def quadrantOf (c : Cell α) (p : Vec α) : Quadrant := ⟨c.center.x ≤ p.x, c.center.y ≤ p.y⟩

def quarter (c : Cell α) (q : Quadrant) : Cell α :=
  let reach := c.half * 0.5
  let offset : Vec α := ⟨if q.right then reach else -reach, if q.lower then reach else -reach⟩
  ⟨c.center + offset, reach⟩

def sideLength (c : Cell α) : α := c.half * 2.0

/-- Square of the distance between two cells, 0 if they meet. -/
def distanceSq (a b : Cell α) : α :=
  let reach := a.half + b.half
  (((a.center - b.center).abs - ⟨reach, reach⟩).larger .zero).lengthSq

end Cell

/-! ## Trees -/

/-- A cell with the number of points in it and their mean. -/
structure Region (α : Type) where
  cell : Cell α
  mass : α
  center : Vec α

inductive QuadTree (α : Type) (n : Nat) where
  | empty
  | leaf (region : Region α) (members : List (Fin n))
  | branch (region : Region α) (upperLeft upperRight lowerLeft lowerRight : QuadTree α n)

namespace QuadTree

variable {n : Nat}

/-- The most points that a cell may hold without being cut. -/
def leafCapacity : Nat := 8

/-- The number of times that a cell and its quarters are cut. -/
def maxLevels : Nat := 12

/-- The region of some of the points. -/
def regionOf (positions : Vector (Vec α) n) (cell : Cell α) (members : List (Fin n)) : Region α :=
  let mass : α := (members.length : α)
  ⟨cell, mass, members.foldl (fun sum i => sum + positions.get i) .zero / mass⟩

/-- The points in one quarter of a cell. -/
def inQuadrant (positions : Vector (Vec α) n) (cell : Cell α) (members : List (Fin n)) (right lower : Bool) :
    List (Fin n) :=
  members.filter fun i => cell.quadrantOf (positions.get i) = ⟨right, lower⟩

/-- The tree over some of the points with at most `levels` levels of cuts. -/
def grow (positions : Vector (Vec α) n) (levels : Nat) (cell : Cell α) (members : List (Fin n)) : QuadTree α n :=
  let region := regionOf positions cell members
  match levels with
  | 0 => .leaf region members
  | levels + 1 =>
    if members.length ≤ leafCapacity then .leaf region members
    else
      let part := inQuadrant positions cell members
      let parts := [part false false, part true false, part false true, part true true]
      if (parts.filter fun p => !p.isEmpty).length ≤ 1 then .leaf region members
      else
        let below (right lower : Bool) : QuadTree α n :=
          let members := part right lower
          if members.isEmpty then .empty else grow positions levels (cell.quarter ⟨right, lower⟩) members
        .branch region (below false false) (below true false) (below false true) (below true true)

/-- The tree over all points, if there are some and all are finite. -/
def build (positions : Vector (Vec α) n) : Option (QuadTree α n) :=
  (Cell.around positions.toList).map fun cell => grow positions maxLevels cell (List.finRange n)

end QuadTree

end CallAtlas
