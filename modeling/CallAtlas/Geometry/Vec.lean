import CallAtlas.Number.Scalar

/-!
Points and displacements of the plane, and rectangles with sides along the axes.
-/

namespace CallAtlas

set_option autoImplicit false

structure Vec (α : Type) where
  x : α
  y : α
deriving DecidableEq

namespace Vec

variable {α : Type} [Scalar α]

def zero : Vec α := ⟨0.0, 0.0⟩

instance : Add (Vec α) := ⟨fun a b => ⟨a.x + b.x, a.y + b.y⟩⟩

instance : Sub (Vec α) := ⟨fun a b => ⟨a.x - b.x, a.y - b.y⟩⟩

instance : Neg (Vec α) := ⟨fun a => ⟨-a.x, -a.y⟩⟩

instance : HMul (Vec α) α (Vec α) := ⟨fun a k => ⟨a.x * k, a.y * k⟩⟩

instance : HDiv (Vec α) α (Vec α) := ⟨fun a k => ⟨a.x / k, a.y / k⟩⟩

/-- Equality as the numbers have it, so a vector that is not a number differs from itself. -/
instance : BEq (Vec α) := ⟨fun a b => a.x == b.x && a.y == b.y⟩

@[simp] theorem add_x (a b : Vec α) : (a + b).x = a.x + b.x := rfl
@[simp] theorem add_y (a b : Vec α) : (a + b).y = a.y + b.y := rfl
@[simp] theorem sub_x (a b : Vec α) : (a - b).x = a.x - b.x := rfl
@[simp] theorem sub_y (a b : Vec α) : (a - b).y = a.y - b.y := rfl
@[simp] theorem neg_x (a : Vec α) : (-a).x = -a.x := rfl
@[simp] theorem neg_y (a : Vec α) : (-a).y = -a.y := rfl
@[simp] theorem scale_x (a : Vec α) (k : α) : (a * k).x = a.x * k := rfl
@[simp] theorem scale_y (a : Vec α) (k : α) : (a * k).y = a.y * k := rfl
@[simp] theorem div_x (a : Vec α) (k : α) : (a / k).x = a.x / k := rfl
@[simp] theorem div_y (a : Vec α) (k : α) : (a / k).y = a.y / k := rfl

def length (a : Vec α) : α := Scalar.hypot a.x a.y

def lengthSq (a : Vec α) : α := a.x * a.x + a.y * a.y

def isFinite (a : Vec α) : Bool := Scalar.isFinite a.x && Scalar.isFinite a.y

def abs (a : Vec α) : Vec α := ⟨Scalar.abs a.x, Scalar.abs a.y⟩

def larger (a b : Vec α) : Vec α := ⟨Scalar.larger a.x b.x, Scalar.larger a.y b.y⟩

def smaller (a b : Vec α) : Vec α := ⟨Scalar.smaller a.x b.x, Scalar.smaller a.y b.y⟩

/-- The larger of the two components. -/
def maxComponent (a : Vec α) : α := Scalar.larger a.x a.y

/-- The unit vector at an angle. -/
def unit (angle : α) : Vec α := ⟨Scalar.cos angle, Scalar.sin angle⟩

end Vec

/-- The rectangle between two corners. -/
structure Rect (α : Type) where
  min : Vec α
  max : Vec α

namespace Rect

variable {α : Type} [Scalar α]

def ofMinSize (min size : Vec α) : Rect α := ⟨min, min + size⟩

def size (r : Rect α) : Vec α := r.max - r.min

def center (r : Rect α) : Vec α := ⟨(r.min.x + r.max.x) / 2.0, (r.min.y + r.max.y) / 2.0⟩

/-- Whether a point lies inside or on the border. -/
def contains (r : Rect α) (p : Vec α) : Bool :=
  decide (r.min.x ≤ p.x) && decide (p.x ≤ r.max.x) && decide (r.min.y ≤ p.y) && decide (p.y ≤ r.max.y)

/-- What two rectangles share. Its corners are out of order if they do not meet. -/
def intersect (r s : Rect α) : Rect α := ⟨r.min.larger s.min, r.max.smaller s.max⟩

def moveBy (r : Rect α) (offset : Vec α) : Rect α := ⟨r.min + offset, r.max + offset⟩

end Rect

end CallAtlas
