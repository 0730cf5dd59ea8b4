import CallAtlas.Settings.Basic

/-!
Pulling settings back into a range in which the simulation neither stalls nor explodes.
-/

namespace CallAtlas

set_option autoImplicit false

open Scalar

variable {α : Type} [Scalar α]

def SimulationSettings.sanitized (s : SimulationSettings α) : SimulationSettings α where
  alphaMin := clamp 1e-6 0.5 s.alphaMin
  alphaDecay := clamp 1e-4 1.0 s.alphaDecay
  velocityRetention := clamp 0.0 1.0 s.velocityRetention
  linkDistance := larger s.linkDistance 1.0
  chargeStrength := s.chargeStrength
  theta := if !isFinite s.theta || s.theta ≤ 0.0 then 0.9 else s.theta
  collisionRadius := larger s.collisionRadius 0.0
  collisionStrength := clamp 0.0 1.0 s.collisionStrength
  collisionIterations := min (max s.collisionIterations 1) 8
  centerStrength := clamp 0.0 1.0 s.centerStrength
  dragAlphaTarget := clamp 0.0 1.0 s.dragAlphaTarget
  maxTicksPerFrame := max s.maxTicksPerFrame 1

def LayoutSettings.sanitized (s : LayoutSettings α) : LayoutSettings α where
  root := s.root
  treeBreadthSpacing := larger s.treeBreadthSpacing 1.0
  treeLevelSpacing := larger s.treeLevelSpacing 1.0
  radialLinkDistance := larger s.radialLinkDistance 1.0
  radialRingSpacing := larger s.radialRingSpacing 1.0
  radialStrength := clamp 0.0 1.0 s.radialStrength

/-- Scale bounds that are not positive and in order. -/
def ViewportSettings.badBounds (s : ViewportSettings α) : Bool :=
  !(decide (0.0 < s.minScale) && decide (s.minScale ≤ s.maxScale))

/-- Bad scale bounds are replaced by the standard ones, both of them. -/
def ViewportSettings.sanitized (s : ViewportSettings α) : ViewportSettings α where
  minScale := if s.badBounds then 0.1 else s.minScale
  maxScale := if s.badBounds then 4.0 else s.maxScale
  width := larger s.width 1.0
  height := larger s.height 1.0

def MinimapSettings.sanitized (s : MinimapSettings α) : MinimapSettings α where
  scale := clamp 0.01 1.0 s.scale
  markerRadius := larger s.markerRadius 0.5

def Settings.sanitized (s : Settings α) : Settings α where
  simulation := s.simulation.sanitized
  layout := s.layout.sanitized
  viewport := s.viewport.sanitized
  minimap := s.minimap.sanitized

end CallAtlas
