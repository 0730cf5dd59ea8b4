import CallAtlas.Number.Scalar

/-!
Settings of the viewer, in four sections, each with its standard values.
-/

namespace CallAtlas

set_option autoImplicit false

variable {α : Type}

/-- How the force simulation runs. -/
structure SimulationSettings (α : Type) where
  /-- Temperature below which the simulation rests. -/
  alphaMin : α
  /-- Share of the way to the target temperature that one tick goes. -/
  alphaDecay : α
  /-- Share of its velocity that a node keeps after a tick. -/
  velocityRetention : α
  linkDistance : α
  /-- Negative strengths repel. -/
  chargeStrength : α
  /-- How far away a cell must be, for its size, to act as one point. -/
  theta : α
  collisionRadius : α
  collisionStrength : α
  collisionIterations : Nat
  centerStrength : α
  /-- Target temperature while a node is held. -/
  dragAlphaTarget : α
  maxTicksPerFrame : Nat

/-- How nodes are placed. -/
structure LayoutSettings (α : Type) where
  root : Option String
  treeBreadthSpacing : α
  treeLevelSpacing : α
  radialLinkDistance : α
  radialRingSpacing : α
  radialStrength : α

structure ViewportSettings (α : Type) where
  minScale : α
  maxScale : α
  width : α
  height : α

structure MinimapSettings (α : Type) where
  scale : α
  markerRadius : α

structure Settings (α : Type) where
  simulation : SimulationSettings α
  layout : LayoutSettings α
  viewport : ViewportSettings α
  minimap : MinimapSettings α

variable [Scalar α]

/-- The decay brings a temperature of 1 down to 0.001 in 300 ticks. -/
def SimulationSettings.standard : SimulationSettings α where
  alphaMin := 0.001
  alphaDecay := 0.022762775
  velocityRetention := 0.6
  linkDistance := 100.0
  chargeStrength := -300.0
  theta := 0.9
  collisionRadius := 50.0
  collisionStrength := 1.0
  collisionIterations := 1
  centerStrength := 1.0
  dragAlphaTarget := 0.3
  maxTicksPerFrame := 4

def LayoutSettings.standard : LayoutSettings α where
  root := none
  treeBreadthSpacing := 120.0
  treeLevelSpacing := 150.0
  radialLinkDistance := 50.0
  radialRingSpacing := 100.0
  radialStrength := 0.1

def ViewportSettings.standard : ViewportSettings α where
  minScale := 0.1
  maxScale := 4.0
  width := 960.0
  height := 640.0

def MinimapSettings.standard : MinimapSettings α where
  scale := 0.2
  markerRadius := 2.0

def Settings.standard : Settings α where
  simulation := .standard
  layout := .standard
  viewport := .standard
  minimap := .standard

end CallAtlas
