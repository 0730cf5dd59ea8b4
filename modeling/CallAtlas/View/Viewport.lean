import CallAtlas.Geometry.Vec
import CallAtlas.Settings.Basic

/-!
The part of the plane that is on screen.

A transform maps the world to the screen by scaling and moving. The viewport owns it and keeps its scale between two
bounds and its shift finite.
-/

namespace CallAtlas

set_option autoImplicit false

/-- Misuse that ends an operation without a result. -/
inductive Fault where
  /-- A value was to be kept between bounds that are not in order. -/
  | scaleBounds
deriving DecidableEq

variable {α : Type} [Scalar α]

/-! ## Transforms -/

structure Transform (α : Type) where
  shift : Vec α
  scale : α

namespace Transform

def identity : Transform α := ⟨.zero, 1.0⟩

/-- From the world to the screen. -/
def apply (t : Transform α) (world : Vec α) : Vec α :=
  ⟨world.x * t.scale + t.shift.x, world.y * t.scale + t.shift.y⟩

/-- From the screen to the world. -/
def invert (t : Transform α) (screen : Vec α) : Vec α :=
  ⟨(screen.x - t.shift.x) / t.scale, (screen.y - t.shift.y) / t.scale⟩

end Transform

/-! ## Viewports -/

structure Viewport (α : Type) where
  transform : Transform α
  size : Vec α
  minScale : α
  maxScale : α

namespace Viewport

def ofSettings (s : ViewportSettings α) : Viewport α where
  transform := .identity
  size := ⟨s.width, s.height⟩
  minScale := s.minScale
  maxScale := s.maxScale

/-- The middle of the viewport. -/
def center (v : Viewport α) : Vec α := v.size * (0.5 : α)

/-- Each side is at least 1. -/
def resize (size : Vec α) (v : Viewport α) : Viewport α := { v with size := size.larger ⟨1.0, 1.0⟩ }

/-- Keeps a scale between the bounds. One that is not a number is replaced by the present scale. -/
def clampScale (v : Viewport α) (scale : α) : Except Fault α :=
  if Scalar.isNaN scale then .ok v.transform.scale
  else if v.minScale ≤ v.maxScale then .ok (Scalar.clamp v.minScale v.maxScale scale)
  else .error .scaleBounds

/-- Takes over a transform, its scale kept between the bounds. A shift that is not finite is not taken over. -/
def setTransform (t : Transform α) (v : Viewport α) : Except Fault (Viewport α) := do
  let scale ← v.clampScale t.scale
  let shift := if t.shift.isFinite then t.shift else v.transform.shift
  pure { v with transform := ⟨shift, scale⟩ }

def panBy (delta : Vec α) (v : Viewport α) : Except Fault (Viewport α) :=
  v.setTransform { v.transform with shift := v.transform.shift + delta }

/-- The shift that puts a point of the world on a point of the screen. -/
def shiftTo (screen world : Vec α) (scale : α) : Vec α :=
  ⟨screen.x - world.x * scale, screen.y - world.y * scale⟩

/-- Multiplies the scale, and the point of the world under `anchor` stays there. -/
def zoomAt (factor : α) (anchor : Vec α) (v : Viewport α) : Except Fault (Viewport α) := do
  let world := v.transform.invert anchor
  let scale ← v.clampScale (v.transform.scale * factor)
  v.setTransform ⟨shiftTo anchor world scale, scale⟩

/-- Zooms about the middle to a given scale. -/
def setScale (scale : α) (v : Viewport α) : Except Fault (Viewport α) :=
  v.zoomAt (scale / v.transform.scale) v.center

/-- Brings a point of the world to the middle. -/
def focus (world : Vec α) (v : Viewport α) : Except Fault (Viewport α) :=
  v.setTransform ⟨shiftTo v.center world v.transform.scale, v.transform.scale⟩

def reset (v : Viewport α) : Viewport α := { v with transform := .identity }

end Viewport

end CallAtlas
