import CallAtlas.Graph.CallGraph

/-!
Breadth-first search along the links of a graph, whichever way they lead.

`explore` visits what can be reached from a queue of nodes, nearest first, and `forest` goes on from the next start
that has not been visited. Both list their visits in the order in which nodes are found, each with the node it was
found from and its distance from the start.
-/

namespace CallAtlas

set_option autoImplicit false

/-- A node when it is found. -/
structure Visit (n : Nat) where
  node : Fin n
  /-- Where the search came from; none for a start. -/
  parent : Option (Fin n)
  level : Nat
deriving DecidableEq

namespace BreadthFirst

variable {n : Nat}

/-- Those of `candidates` that have not been found, each once, and what is not found after that. -/
def discover (unseen : List (Fin n)) : List (Fin n) → List (Fin n) × List (Fin n)
  | [] => ([], unseen)
  | j :: rest =>
    if j ∈ unseen then
      let (fresh, left) := discover (unseen.erase j) rest
      (j :: fresh, left)
    else discover unseen rest

theorem discover_length (unseen candidates : List (Fin n)) :
    (discover unseen candidates).1.length + (discover unseen candidates).2.length = unseen.length := by
  induction candidates generalizing unseen with
  | nil => simp [discover]
  | cons j rest ih =>
    rw [discover]
    split
    · next h =>
      have := ih (unseen.erase j)
      rw [List.length_erase_of_mem h] at this
      have := List.length_pos_of_mem h
      simp only [List.length_cons]
      omega
    · exact ih unseen

end BreadthFirst

namespace CallGraph

open BreadthFirst

/-- The visits of a search with the given queue, and the nodes that it does not find. -/
def explore (g : CallGraph) (queue : List (Visit g.size)) (unseen : List (Fin g.size)) :
    List (Visit g.size) × List (Fin g.size) :=
  match queue with
  | [] => ([], unseen)
  | visit :: rest =>
    let found := discover unseen (g.neighbours visit.node)
    let fresh := found.1.map fun j => ⟨j, some visit.node, visit.level + 1⟩
    let (visits, left) := g.explore (rest ++ fresh) found.2
    (visit :: visits, left)
termination_by 2 * unseen.length + queue.length
decreasing_by
  have := discover_length unseen (g.neighbours visit.node)
  simp only [List.length_append, List.length_map, List.length_cons]
  omega

/-- The visits of a search from one node. -/
def visitsFrom (g : CallGraph) (start : Fin g.size) : List (Visit g.size) :=
  (g.explore [⟨start, none, 0⟩] ((List.finRange g.size).erase start)).1

/-- The visits of searches from each start in turn that has not been found by then. -/
def forestFrom (g : CallGraph) (unseen : List (Fin g.size)) : List (Fin g.size) → List (Visit g.size)
  | [] => []
  | start :: rest =>
    if start ∈ unseen then
      let (visits, left) := g.explore [⟨start, none, 0⟩] (unseen.erase start)
      visits ++ g.forestFrom left rest
    else g.forestFrom unseen rest

/-- The search of the whole graph, from the root if there is one and then from the first node left. -/
def forest (g : CallGraph) (root : Option (Fin g.size)) : List (Visit g.size) :=
  g.forestFrom (List.finRange g.size) (root.toList ++ List.finRange g.size)

end CallGraph

end CallAtlas
