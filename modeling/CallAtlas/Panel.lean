import CallAtlas.Geometry.Vec
import CallAtlas.Payload.Details

/-!
Windows with the details of a node. They open in a cascade, so that one does not hide the one before.
-/

namespace CallAtlas

set_option autoImplicit false

variable {α : Type} [Scalar α]

/-- Where the next panels open. -/
structure Cascade (α : Type) where
  origin : Vec α
  opened : Nat

structure Panel (α : Type) where
  details : NodeDetails
  position : Vec α
  isOpen : Bool

namespace Cascade

def startingAt (origin : Vec α) : Cascade α := ⟨origin, 0⟩

/-- The step from one panel to the next. -/
def step : Vec α := ⟨28.0, 28.0⟩

/-- The number of steps after which the cascade starts over. -/
def wrap : Nat := 8

/-- Opens a panel at the next place. -/
def openPanel (details : NodeDetails) (c : Cascade α) : Panel α × Cascade α :=
  (⟨details, c.origin + (step : Vec α) * ((c.opened % wrap : Nat) : α), true⟩, { c with opened := c.opened + 1 })

end Cascade

def Panel.title (p : Panel α) : String := p.details.id

end CallAtlas
