import CallAtlas.Graph.BreadthFirst

/-!
The node at the heart of a layout, and the rings of the nodes around it.
-/

namespace CallAtlas.CallGraph

set_option autoImplicit false

/-- The largest item, and of several the last one. -/
def maxBy {τ : Type} (cmp : τ → τ → Ordering) : List τ → Option τ
  | [] => none
  | first :: rest => some (rest.foldl (fun best item => if cmp best item = .gt then best else item) first)

/-- For every node the number of proper links that leave it. -/
def outDegrees (g : CallGraph) : Vector Nat g.size :=
  g.properLinks.foldl (fun counts l => counts.set l.source (counts.get l.source + 1) l.source.isLt)
    (Vector.replicate _ 0)

/-- By the number of links; of equal numbers the lower node is the larger. -/
def compareBusy {n : Nat} (a b : Fin n × Nat) : Ordering := (compare a.2 b.2).then (compare b.1 a.1)

/-- A node with the most outgoing links. -/
def busiest (g : CallGraph) : Option (Fin g.size) :=
  let counts := g.outDegrees
  (maxBy compareBusy ((List.finRange g.size).map fun i => (i, counts.get i))).map (·.1)

/-- The configured root if it is there, else the first node with a supplied depth of 0, else the busiest node. -/
def resolveRoot (g : CallGraph) (configured : Option String) : Option (Fin g.size) :=
  match configured.bind g.indexOf with
  | some i => some i
  | none =>
    match (List.finRange g.size).find? fun i => (g.vertices.get i).depth = some 0 with
    | some i => some i
    | none => g.busiest

/-! ## Rings -/

/-- The largest number of a ring. -/
def lastRing : Nat := 4294967295

/-- The supplied depth of a node, or its distance from the root. -/
def ring? (g : CallGraph) (visits : List (Visit g.size)) (i : Fin g.size) : Option Nat :=
  match (g.vertices.get i).depth with
  | some depth => some depth
  | none => (visits.find? (·.node = i)).map (·.level)

/-- The rings of all nodes. A node without a supplied depth that cannot be reached goes one ring beyond all others. -/
def resolveDepths (g : CallGraph) (root : Option (Fin g.size)) : Vector Nat g.size :=
  let visits := (root.map g.visitsFrom).getD []
  let known := (List.finRange g.size).filterMap (g.ring? visits)
  let beyond := (known.max?.map fun deepest => min (deepest + 1) lastRing).getD 0
  Vector.ofFn fun i => (g.ring? visits i).getD beyond

end CallAtlas.CallGraph
