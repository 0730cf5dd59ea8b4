import CallAtlas.Physics.Force
import CallAtlas.Settings.Basic

/-!
The simulation: forces under a falling temperature.

A tick moves the temperature `alpha` some of the way to its target, lets the forces act, and moves every node that is
not held. Below a least temperature the simulation rests until it is restarted.
-/

namespace CallAtlas

set_option autoImplicit false

open Scalar

structure Simulation (α : Type) where
  alpha : α
  alphaTarget : α
  alphaMin : α
  alphaDecay : α
  velocityRetention : α
  running : Bool
  forces : ForceSet α

namespace Simulation

variable {α : Type} [Scalar α]

def ofSettings (s : SimulationSettings α) : Simulation α where
  alpha := 1.0
  alphaTarget := 0.0
  alphaMin := s.alphaMin
  alphaDecay := s.alphaDecay
  velocityRetention := s.velocityRetention
  running := false
  forces := .none

def setAlphaTarget (target : α) (s : Simulation α) : Simulation α :=
  { s with alphaTarget := clamp 0.0 1.0 target }

def setForces (forces : ForceSet α) (s : Simulation α) : Simulation α := { s with forces := forces }

def retarget (center : Vec α) (s : Simulation α) : Simulation α := { s with forces := s.forces.retarget center }

/-- Heats to `alpha` and runs. -/
def restart (alpha : α) (s : Simulation α) : Simulation α := { s with alpha := clamp 0.0 1.0 alpha, running := true }

def stop (s : Simulation α) : Simulation α := { s with running := false }

/-- Moves one node by its velocity. A held node is where it is held, and a velocity that is not finite is dropped. -/
def integrate (s : Simulation α) (b : Body α) : Body α :=
  match b.pin with
  | some pin => { b with pos := pin, velocity := .zero }
  | none =>
    let slowed := b.velocity * s.velocityRetention
    let velocity := if slowed.isFinite then slowed else .zero
    { b with pos := b.pos + velocity, velocity := velocity }

/-- One tick. A simulation that rests stays as it is, and so does the model. -/
def tick (s : Simulation α) (m : Model α) : Simulation α × Model α :=
  if s.running then
    let cooled := { s with alpha := s.alpha + (s.alphaTarget - s.alpha) * s.alphaDecay }
    let moved := (cooled.forces.apply cooled.alpha m).mapBodies cooled.integrate
    ({ cooled with running := !decide (cooled.alpha < cooled.alphaMin) }, moved)
  else (s, m)

end Simulation

end CallAtlas
