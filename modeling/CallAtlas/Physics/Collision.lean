import CallAtlas.Physics.Charge

/-!
Pushing apart nodes whose discs overlap.

All discs have one radius. `pairs` lists the pairs of nodes that are near enough to be looked at, each pair once;
cells that are farther apart than two discs reach are passed over together.
-/

namespace CallAtlas.Collision

set_option autoImplicit false

variable {α : Type} [Scalar α] {n : Nat}

/-! ## Pairs to look at -/

/-- Every two members of a list, in its order. -/
def pairsOf : List (Fin n) → List (Fin n × Fin n)
  | [] => []
  | i :: rest => rest.map (fun j => (i, j)) ++ pairsOf rest

/-- The pairs with one node from each of two trees. Of two cells that are both cut, the larger is opened. -/
def pairsBetween (reachSq : α) : QuadTree α n → QuadTree α n → List (Fin n × Fin n)
  | .empty, _ => []
  | _, .empty => []
  | .leaf r members, .leaf r' members' =>
    if reachSq < r.cell.distanceSq r'.cell then []
    else members.flatMap fun i => members'.map fun j => (i, j)
  | .leaf r members, .branch r' a b c d =>
    if reachSq < r.cell.distanceSq r'.cell then []
    else
      pairsBetween reachSq (.leaf r members) a ++ pairsBetween reachSq (.leaf r members) b ++
        pairsBetween reachSq (.leaf r members) c ++ pairsBetween reachSq (.leaf r members) d
  | .branch r a b c d, .leaf r' members =>
    if reachSq < r.cell.distanceSq r'.cell then []
    else
      pairsBetween reachSq a (.leaf r' members) ++ pairsBetween reachSq b (.leaf r' members) ++
        pairsBetween reachSq c (.leaf r' members) ++ pairsBetween reachSq d (.leaf r' members)
  | .branch r a b c d, .branch r' a' b' c' d' =>
    if reachSq < r.cell.distanceSq r'.cell then []
    else if r'.cell.half ≤ r.cell.half then
      pairsBetween reachSq a (.branch r' a' b' c' d') ++ pairsBetween reachSq b (.branch r' a' b' c' d') ++
        pairsBetween reachSq c (.branch r' a' b' c' d') ++ pairsBetween reachSq d (.branch r' a' b' c' d')
    else
      pairsBetween reachSq (.branch r a b c d) a' ++ pairsBetween reachSq (.branch r a b c d) b' ++
        pairsBetween reachSq (.branch r a b c d) c' ++ pairsBetween reachSq (.branch r a b c d) d'
termination_by a b => sizeOf a + sizeOf b

/-- The pairs of nodes of one tree. -/
def pairs (reachSq : α) : QuadTree α n → List (Fin n × Fin n)
  | .empty => []
  | .leaf _ members => pairsOf members
  | .branch _ a b c d =>
    pairs reachSq a ++ pairsBetween reachSq a b ++ pairsBetween reachSq a c ++ pairsBetween reachSq a d ++
      (pairs reachSq b ++ pairsBetween reachSq b c ++ pairsBetween reachSq b d ++
        (pairs reachSq c ++ pairsBetween reachSq c d ++ pairs reachSq d))

/-! ## Impulses -/

/-- Square of the distance below which two discs overlap. -/
def reachSq (radius : α) : α :=
  let reach := radius * 2.0
  reach * reach

/-- Adds the impulses on two nodes that overlap, opposite and shared by the areas of their discs. Coincident nodes
are pushed along `direction`. -/
def separate (direction : Nat → Nat → Vec α) (radius strength : α) (positions impulses : Vector (Vec α) n)
    (i j : Fin n) : Vector (Vec α) n :=
  let reach := radius + radius
  let apart := positions.get i - positions.get j
  if reach * reach ≤ apart.lengthSq then impulses
  else
    let delta := if apart.lengthSq < coincidentSq then direction i j * (coincidentDistance : α) else apart
    let distance := delta.length
    let push := delta * ((reach - distance) / distance * strength)
    let area := radius * radius
    let share := area / (area + area)
    let impulses := impulses.set i (impulses.get i + push * share) i.isLt
    impulses.set j (impulses.get j - push * (1.0 - share)) j.isLt

/-- The impulses on all nodes. -/
def impulses (direction : Nat → Nat → Vec α) (radius strength : α) (positions : Vector (Vec α) n)
    (tree : QuadTree α n) : Vector (Vec α) n :=
  (pairs (reachSq radius) tree).foldl
    (fun sum pair => separate direction radius strength positions sum pair.1 pair.2) (Vector.replicate n .zero)

end CallAtlas.Collision
