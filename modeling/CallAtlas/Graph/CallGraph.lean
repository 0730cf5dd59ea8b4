import CallAtlas.Payload.Spec

/-!
The graph that is shown: nodes numbered in the order of the payload, links between their numbers.

Of several nodes with one id the first is kept, and a link whose ends are not both there is dropped. Links are
sorted by source and target, and each is there once. Ends are numbers below the number of nodes by type, so a link
always leads from a node to a node.
-/

namespace CallAtlas

set_option autoImplicit false

/-- A node as far as it does not move. -/
structure Vertex where
  id : String
  /-- The supplied depth, as the number of a ring. -/
  depth : Option Nat
  metrics : Table Float

namespace Vertex

def ofSpec (spec : NodeSpec) : Vertex := ⟨spec.id, spec.ring, spec.metrics⟩

/-- The value of a metric. One that is missing or not finite counts as 0. -/
def metric (v : Vertex) (name : String) : Float :=
  match v.metrics.lookup name with
  | some value => if value.isFinite then value else 0.0
  | none => 0.0

def metricNames (v : Vertex) : List String := v.metrics.names

end Vertex

structure Link (n : Nat) where
  source : Fin n
  target : Fin n
deriving DecidableEq

namespace Link

variable {n : Nat}

def isLoop (l : Link n) : Bool := l.source = l.target

/-- By source, then by target. -/
def before (a b : Link n) : Bool :=
  decide (a.source < b.source) || (a.source = b.source && decide (a.target ≤ b.target))

/-- Changes the entries of the source and then of the target, each by what the other end is. -/
def changeEnds {τ : Type} (f : Fin n → τ → τ) (entries : Vector τ n) (l : Link n) : Vector τ n :=
  let entries := entries.set l.source (f l.target (entries.get l.source)) l.source.isLt
  entries.set l.target (f l.source (entries.get l.target)) l.target.isLt

end Link

structure CallGraph where
  size : Nat
  vertices : Vector Vertex size
  links : List (Link size)
  /-- The numbers of the nodes by their ids. -/
  indexById : Table (Fin size)
  /-- The details of the nodes that have some, by their ids. -/
  detailsById : Table NodeDetails

/-! ## From a payload -/

/-- The nodes that have been taken in from a payload, and what is known by their ids. -/
structure Roster where
  vertices : Array Vertex
  indexById : Table Nat
  detailsById : Table NodeDetails
  /-- Every number is that of a node. -/
  inRange : ∀ entry ∈ indexById, entry.2 < vertices.size

namespace Roster

def empty : Roster := ⟨#[], [], [], by simp⟩

/-- Takes a node in under the next number, unless its id is there. -/
def take (r : Roster) (spec : NodeSpec) : Roster :=
  if (r.indexById.lookup spec.id).isSome then r
  else
    { vertices := r.vertices.push (.ofSpec spec)
      indexById := r.indexById.enter spec.id r.vertices.size
      detailsById :=
        match spec.details with
        | some details => r.detailsById.enter spec.id details
        | none => r.detailsById
      inRange := by
        intro entry hentry
        rw [Array.size_push]
        rcases Table.mem_of_mem_enter hentry with rfl | hentry
        · exact Nat.lt_succ_self _
        · exact Nat.lt_succ_of_lt (r.inRange entry hentry) }

/-- The numbers of the nodes by their ids. -/
def numbers (r : Roster) : Table (Fin r.vertices.size) :=
  r.indexById.pmap (fun entry h => (entry.1, ⟨entry.2, h⟩)) r.inRange

end Roster

namespace CallGraph

def empty : CallGraph := ⟨0, #v[], [], [], []⟩

/-- Drops items that equal the one before them. -/
def dropRepeats {τ : Type} [DecidableEq τ] : List τ → List τ
  | [] => []
  | [a] => [a]
  | a :: b :: rest => if a = b then dropRepeats (b :: rest) else a :: dropRepeats (b :: rest)

/-- The links of a payload whose ends both have a number, in the order of the payload. -/
def resolveLinks {n : Nat} (numbers : Table (Fin n)) (specs : List LinkSpec) : List (Link n) :=
  specs.filterMap fun spec =>
    match numbers.lookup spec.source, numbers.lookup spec.target with
    | some source, some target => some ⟨source, target⟩
    | _, _ => none

def ofSpec (graph : GraphSpec) : CallGraph :=
  let roster := graph.nodes.foldl Roster.take .empty
  { size := roster.vertices.size
    vertices := ⟨roster.vertices, rfl⟩
    links := dropRepeats ((resolveLinks roster.numbers graph.links).mergeSort Link.before)
    indexById := roster.numbers
    detailsById := roster.detailsById }

/-! ## Looking things up -/

def isEmpty (g : CallGraph) : Bool := g.size = 0

def ids (g : CallGraph) : List String := g.vertices.toList.map (·.id)

def indexOf (g : CallGraph) (id : String) : Option (Fin g.size) := g.indexById.lookup id

def vertex? (g : CallGraph) (id : String) : Option Vertex := (g.indexOf id).map fun i => g.vertices.get i

def details (g : CallGraph) (id : String) : Option NodeDetails := g.detailsById.lookup id

/-- Sorts names and drops repeated ones. -/
def sortedNames (names : List String) : List String := dropRepeats (names.mergeSort (· ≤ ·))

/-- The names of all metrics that some node has, sorted. -/
def metricNames (g : CallGraph) : List String := sortedNames (g.vertices.toList.flatMap Vertex.metricNames)

/-! ## Neighbours -/

/-- Links between two different nodes. -/
def properLinks (g : CallGraph) : List (Link g.size) := g.links.filter fun l => !l.isLoop

/-- One entry for every node, made in one pass over the proper links. Each link changes the entry of its source and
then that of its target, and `f` is told the other end. -/
def alongLinks {τ : Type} (g : CallGraph) (start : τ) (f : Fin g.size → τ → τ) : Vector τ g.size :=
  g.properLinks.foldl (Link.changeEnds f) (Vector.replicate _ start)

/-- For every node the number of ends of proper links at it. -/
def degrees (g : CallGraph) : Vector Nat g.size := g.alongLinks 0 fun _ count => count + 1

def degree (g : CallGraph) (i : Fin g.size) : Nat := g.degrees.get i

/-- The same for a number that need not be that of a node. -/
def degreeAt (g : CallGraph) (i : Nat) : Nat := if h : i < g.size then g.degree ⟨i, h⟩ else 0

/-- For every node the other ends of the proper links at it, in the order of the links, whichever way they lead. -/
def adjacency (g : CallGraph) : Vector (List (Fin g.size)) g.size := g.alongLinks [] fun j found => found ++ [j]

def neighbours (g : CallGraph) (i : Fin g.size) : List (Fin g.size) := g.adjacency.get i

end CallGraph

end CallAtlas
