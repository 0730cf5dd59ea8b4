import CallAtlas.Number.Binary32

/-!
Exact values of floats.

A finite float is a signed natural number times a power of two. `Dyadic` holds that value, and the operations
whose result depends on it exactly start here: remainders, fixed decimals and the fewest digits that read
back.
-/

namespace CallAtlas

set_option autoImplicit false

/-- The number `± significand * 2 ^ exponent`. -/
structure Dyadic where
  negative : Bool
  significand : Nat
  exponent : Int
deriving DecidableEq

namespace Dyadic

/-- Splits the bits of a finite float with `width` fraction bits; `least` is the exponent of the unit of the
subnormal numbers. -/
def ofFields (negative : Bool) (width : Nat) (least : Int) (exponent fraction : Nat) : Dyadic :=
  if exponent = 0 then ⟨negative, fraction, least⟩
  else ⟨negative, fraction + Nat.pow 2 width, least + (exponent : Int) - 1⟩

/-- The exact value of a binary64 float, if it is finite. -/
def ofFloat? (x : Float) : Option Dyadic :=
  let bits := x.toBits.toNat
  let exponent := bits / 0x10000000000000 % 0x800
  if exponent = 2047 then none
  else some (ofFields (bits / 0x8000000000000000 == 1) 52 (-1074) exponent (bits % 0x10000000000000))

/-- The exact value of a binary32 float, if it is finite. -/
def ofFloat32? (x : Float32) : Option Dyadic :=
  let bits := x.toBits.toNat
  let exponent := bits / 0x800000 % 0x100
  if exponent = 255 then none
  else some (ofFields (bits / 0x80000000 == 1) 23 (-149) exponent (bits % 0x800000))

/-- The magnitude as a quotient of natural numbers. -/
def fraction (d : Dyadic) : Nat × Nat :=
  if 0 ≤ d.exponent then (d.significand * Nat.pow 2 d.exponent.toNat, 1)
  else (d.significand, Nat.pow 2 (-d.exponent).toNat)

/-- The significand of the magnitude in units of `2 ^ unit`, for a unit no coarser than the number's own. -/
def inUnits (d : Dyadic) (unit : Int) : Nat := d.significand * Nat.pow 2 (d.exponent - unit).toNat

end Dyadic

namespace Binary32

/-- The power of two with a given exponent, as far as it is a normal binary64 float. -/
def powerOfTwo (exponent : Int) : Float := Float.ofBits ((exponent + 1023).toNat.toUInt64 <<< 52)

/-- Remainder of a division whose quotient is cut to an integer. It is exact and has the sign of the
dividend. -/
def remainder (x y : Float32) : Float32 :=
  match Dyadic.ofFloat32? x, Dyadic.ofFloat32? y with
  | some a, some b =>
    if b.significand = 0 then Float32.ofBits 0x7fc00000
    else
      let unit := min a.exponent b.exponent
      let rest := a.inUnits unit % b.inUnits unit
      let magnitude := narrow (rest.toFloat * powerOfTwo unit)
      if a.negative then -magnitude else magnitude
  | some _, none => if y.isNaN then y else x
  | none, _ => Float32.ofBits 0x7fc00000

/-- Remainder in `[0, |y|)`, up to rounding of the shift by `|y|`. -/
def euclideanRemainder (x y : Float32) : Float32 :=
  let rest := remainder x y
  if rest < 0.0 then rest + y.abs else rest

end Binary32

end CallAtlas
