import CallAtlas.Geometry.Vec
import CallAtlas.Graph.BreadthFirst

/-!
Layered placement of a graph along its breadth-first forest.

Every level is a row. Nodes without children take consecutive slots in the order of a walk through the trees, and
every other node sits in the middle between its first and its last child.
-/

namespace CallAtlas

set_option autoImplicit false

namespace Forest

variable {n : Nat}

/-- The nodes found from a node, in the order in which they were found. -/
def children (visits : List (Visit n)) (i : Fin n) : List (Fin n) :=
  (visits.filter (·.parent = some i)).map (·.node)

def level (visits : List (Visit n)) (i : Fin n) : Nat := ((visits.find? (·.node = i)).map (·.level)).getD 0

def roots (visits : List (Visit n)) : List (Fin n) := (visits.filter (·.parent = none)).map (·.node)

/-- The visits of nodes that were not found from a node. -/
def others (visits : List (Visit n)) (i : Fin n) : List (Visit n) := visits.filter (·.parent ≠ some i)

theorem length_children_add_others (visits : List (Visit n)) (i : Fin n) :
    (children visits i).length + (others visits i).length = visits.length := by
  induction visits with
  | nil => rfl
  | cons v rest ih =>
    simp only [children, others, List.length_map] at ih ⊢
    by_cases h : v.parent = some i
    · simp only [h, decide_true, List.filter_cons_of_pos, List.length_cons, ne_eq, not_true_eq_false,
        decide_false, Bool.false_eq_true, not_false_eq_true, List.filter_cons_of_neg] at ih ⊢
      omega
    · simp only [h, decide_false, Bool.false_eq_true, not_false_eq_true, List.filter_cons_of_neg, ne_eq,
        decide_true, List.filter_cons_of_pos, List.length_cons] at ih ⊢
      omega

/-- Walks down from the nodes on a stack, each node before its children. `pending` holds the visits whose node has
not been put on the stack. -/
def walk (pending : List (Visit n)) (stack : List (Fin n)) : List (Fin n) :=
  match stack with
  | [] => []
  | i :: rest => i :: walk (others pending i) (children pending i ++ rest)
termination_by 2 * pending.length + stack.length
decreasing_by
  have := length_children_add_others pending i
  simp only [List.length_append, List.length_cons]
  omega

/-- All nodes, every tree in one piece and each node before its children. -/
def preorder (visits : List (Visit n)) : List (Fin n) :=
  walk (visits.filter (·.parent ≠ none)) (roots visits)

variable {α : Type} [Scalar α]

/-- Slots while they are given out. -/
structure Slots (α : Type) (n : Nat) where
  slots : Vector α n
  next : α

/-- Gives the next slot to a node without children. -/
def Slots.give (visits : List (Visit n)) (s : Slots α n) (i : Fin n) : Slots α n :=
  if (children visits i).isEmpty then ⟨s.slots.set i s.next i.isLt, s.next + 1.0⟩ else s

/-- Puts a node over the middle of its children. -/
def centerOver (visits : List (Visit n)) (slots : Vector α n) (i : Fin n) : Vector α n :=
  match (children visits i).head?, (children visits i).getLast? with
  | some first, some last => slots.set i ((slots.get first + slots.get last) * 0.5) i.isLt
  | _, _ => slots

/-- The slots of all nodes and the first slot that is free. -/
def assignSlots (visits : List (Visit n)) : Slots α n :=
  let order := preorder visits
  let leaves := order.foldl (Slots.give visits) ⟨Vector.replicate n 0.0, 0.0⟩
  { leaves with slots := order.reverse.foldl (centerOver visits) leaves.slots }

end Forest

variable {α : Type} [Scalar α]

/-- The places of all nodes, in rows around `center`. -/
def CallGraph.treePositions (g : CallGraph) (root : Option (Fin g.size)) (center : Vec α) (breadth level : α) :
    Vector (Vec α) g.size :=
  let visits := g.forest root
  let assigned : Forest.Slots α g.size := Forest.assignSlots visits
  let deepest := ((visits.map (·.level)).max?).getD 0
  let width := Scalar.larger (assigned.next - 1.0) 0.0 * breadth
  let height := (deepest : α) * level
  let origin := center - (⟨width, height⟩ : Vec α) * (0.5 : α)
  Vector.ofFn fun i => origin + ⟨assigned.slots.get i * breadth, (Forest.level visits i : α) * level⟩

end CallAtlas
