import CallAtlas.Physics.Simulation

/-!
Dragging nodes with a pointer. A dragged node is pinned to where the pointer holds it, and the simulation is kept
warm meanwhile. A node is held by at most one drag.
-/

namespace CallAtlas

set_option autoImplicit false

/-- A node in the hand: its place relative to the pointer is kept. -/
structure Drag (α : Type) where
  node : Nat
  offset : Vec α

structure Drags (α : Type) where
  active : List (Drag α)
  /-- Target temperature while something is dragged. -/
  alphaTarget : α

/-- What dragging acts on. -/
structure Held (α : Type) where
  drags : Drags α
  model : Model α
  simulation : Simulation α

namespace Drags

variable {α : Type}

def none (alphaTarget : α) : Drags α := ⟨[], alphaTarget⟩

def isDragging (d : Drags α) (node : Nat) : Bool := d.active.any (·.node = node)

def isIdle (d : Drags α) : Bool := d.active.isEmpty

end Drags

namespace Held

variable {α : Type} [Scalar α]

/-- Warms the simulation for a drag, and wakes it if it rests. -/
def warm (target : α) (s : Simulation α) : Simulation α :=
  let awake := if s.running then s else s.restart target
  awake.setAlphaTarget target

/-- Takes a node in the hand. Nothing if it is already held or does not exist. -/
def begin (node : Nat) (pointer : Vec α) (simulated : Bool) (h : Held α) : Option (Held α) :=
  if h.drags.isDragging node then .none
  else
    match h.model.body? node with
    | .none => .none
    | some body =>
      some
        { drags := { h.drags with active := h.drags.active ++ [⟨node, body.pos - pointer⟩] }
          model := h.model.modifyBody node fun b => { b with pin := some b.pos, velocity := .zero }
          simulation := if simulated then warm h.drags.alphaTarget h.simulation else h.simulation }

/-- Moves a node that is held. -/
def moveTo (node : Nat) (pointer : Vec α) (h : Held α) : Held α :=
  match h.drags.active.find? (·.node = node) with
  | some drag =>
    let place := pointer + drag.offset
    { h with model := h.model.modifyBody node fun b => { b with pin := some place, pos := place } }
  | .none => h

def release (node : Nat) (m : Model α) : Model α := m.modifyBody node fun b => { b with pin := .none }

/-- Lets a node go. With the last one the simulation may cool down. -/
def finish (node : Nat) (h : Held α) : Held α :=
  if h.drags.isDragging node then
    let left := h.drags.active.filter (·.node ≠ node)
    { drags := { h.drags with active := left }
      model := release node h.model
      simulation := if left.isEmpty then h.simulation.setAlphaTarget 0.0 else h.simulation }
  else h

/-- Lets all nodes go. -/
def cancelAll (h : Held α) : Held α where
  drags := { h.drags with active := [] }
  model := h.drags.active.foldl (fun m drag => release drag.node m) h.model
  simulation := h.simulation.setAlphaTarget 0.0

end Held

end CallAtlas
