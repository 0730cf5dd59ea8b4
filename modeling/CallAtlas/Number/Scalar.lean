/-!
The numbers that geometry is computed in.

`Scalar` lists what the layouts, the forces and the viewport need of a number. Binary32 floats run the
program, and any ordered field can stand in for them where rounding is not the point. Comparisons are the
only source of truth about a value that is not a number: such a value is not even at most itself.
-/

namespace CallAtlas

set_option autoImplicit false

/-- Arithmetic, comparison, decimal literals and the few functions of geometry. -/
class Scalar (α : Type) extends Add α, Sub α, Mul α, Div α, Neg α, LT α, LE α, BEq α, OfScientific α,
    NatCast α where
  decidableLT : DecidableLT α
  decidableLE : DecidableLE α
  isFinite : α → Bool
  sqrt : α → α
  /-- Length of the hypotenuse over two legs. -/
  hypot : α → α → α
  sin : α → α
  cos : α → α

attribute [reducible, instance] Scalar.decidableLT Scalar.decidableLE

namespace Scalar

variable {α : Type} [Scalar α]

/-- A value that compares with nothing, itself included. -/
def isNaN (x : α) : Bool := !decide (x ≤ x)

/-- The larger of two values. A value that is not a number gives way to the other one, and of two equal
values the first is taken. -/
def larger (x y : α) : α := if isNaN x then y else if x < y then y else x

/-- The smaller of two values, with the same two rules. -/
def smaller (x y : α) : α := if isNaN x then y else if y < x then y else x

/-- Pulls a value into `[lo, hi]`. A value that is not a number stays as it is. -/
def clamp (lo hi x : α) : α :=
  let raised := if x < lo then lo else x
  if hi < raised then hi else raised

def abs (x : α) : α := if x < 0.0 then -x else x

end Scalar

end CallAtlas
