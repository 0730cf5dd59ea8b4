import CallAtlas.Settings.Basic

/-!
The fields of the settings by the names they are written under, in the order of their sections.
-/

namespace CallAtlas

set_option autoImplicit false

/-- A named field of settings of type `σ`: how it is looked up and entered. -/
inductive Slot (α σ : Type) where
  | scalar (name : String) (get : σ → α) (set : σ → α → σ)
  | count (name : String) (get : σ → Nat) (set : σ → Nat → σ)
  | text (name : String) (get : σ → Option String) (set : σ → Option String → σ)

namespace Slot

variable {α σ τ : Type}

def name : Slot α σ → String
  | .scalar name _ _ => name
  | .count name _ _ => name
  | .text name _ _ => name

/-- A field of a part as a field of the whole. -/
def within (part : τ → σ) (enter : τ → σ → τ) : Slot α σ → Slot α τ
  | .scalar name get set => .scalar name (fun t => get (part t)) fun t x => enter t (set (part t) x)
  | .count name get set => .count name (fun t => get (part t)) fun t n => enter t (set (part t) n)
  | .text name get set => .text name (fun t => get (part t)) fun t s => enter t (set (part t) s)

end Slot

variable {α : Type}

def SimulationSettings.slots : List (Slot α (SimulationSettings α)) :=
  [.scalar "alpha_min" (·.alphaMin) fun s x => { s with alphaMin := x },
   .scalar "alpha_decay" (·.alphaDecay) fun s x => { s with alphaDecay := x },
   .scalar "velocity_retention" (·.velocityRetention) fun s x => { s with velocityRetention := x },
   .scalar "link_distance" (·.linkDistance) fun s x => { s with linkDistance := x },
   .scalar "charge_strength" (·.chargeStrength) fun s x => { s with chargeStrength := x },
   .scalar "theta" (·.theta) fun s x => { s with theta := x },
   .scalar "collision_radius" (·.collisionRadius) fun s x => { s with collisionRadius := x },
   .scalar "collision_strength" (·.collisionStrength) fun s x => { s with collisionStrength := x },
   .count "collision_iterations" (·.collisionIterations) fun s n => { s with collisionIterations := n },
   .scalar "center_strength" (·.centerStrength) fun s x => { s with centerStrength := x },
   .scalar "drag_alpha_target" (·.dragAlphaTarget) fun s x => { s with dragAlphaTarget := x },
   .count "max_ticks_per_frame" (·.maxTicksPerFrame) fun s n => { s with maxTicksPerFrame := n }]

def LayoutSettings.slots : List (Slot α (LayoutSettings α)) :=
  [.text "root" (·.root) fun s id => { s with root := id },
   .scalar "tree_breadth_spacing" (·.treeBreadthSpacing) fun s x => { s with treeBreadthSpacing := x },
   .scalar "tree_level_spacing" (·.treeLevelSpacing) fun s x => { s with treeLevelSpacing := x },
   .scalar "radial_link_distance" (·.radialLinkDistance) fun s x => { s with radialLinkDistance := x },
   .scalar "radial_ring_spacing" (·.radialRingSpacing) fun s x => { s with radialRingSpacing := x },
   .scalar "radial_strength" (·.radialStrength) fun s x => { s with radialStrength := x }]

def ViewportSettings.slots : List (Slot α (ViewportSettings α)) :=
  [.scalar "min_scale" (·.minScale) fun s x => { s with minScale := x },
   .scalar "max_scale" (·.maxScale) fun s x => { s with maxScale := x },
   .scalar "width" (·.width) fun s x => { s with width := x },
   .scalar "height" (·.height) fun s x => { s with height := x }]

def MinimapSettings.slots : List (Slot α (MinimapSettings α)) :=
  [.scalar "scale" (·.scale) fun s x => { s with scale := x },
   .scalar "marker_radius" (·.markerRadius) fun s x => { s with markerRadius := x }]

namespace Settings

/-- All fields under the names of their sections. -/
def sections : List (String × List (Slot α (Settings α))) :=
  [("simulation", SimulationSettings.slots.map (.within (·.simulation) fun s part => { s with simulation := part })),
   ("layout", LayoutSettings.slots.map (.within (·.layout) fun s part => { s with layout := part })),
   ("viewport", ViewportSettings.slots.map (.within (·.viewport) fun s part => { s with viewport := part })),
   ("minimap", MinimapSettings.slots.map (.within (·.minimap) fun s part => { s with minimap := part }))]

/-- Enters a number under the name of its field, which no two sections share. Nothing if there is no such field. -/
def setScalar? (name : String) (x : α) (s : Settings α) : Option (Settings α) :=
  (sections.flatMap (·.2)).findSome? fun slot =>
    match slot with
    | .scalar name' _ set => if name' = name then some (set s x) else none
    | _ => none

end Settings

end CallAtlas
