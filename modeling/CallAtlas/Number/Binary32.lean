import CallAtlas.Number.Scalar

/-!
Binary32 floats beside binary64 floats.

`widen` is exact and `narrow` rounds to nearest, ties to even. Both work on the bit patterns, so they can be
evaluated and reasoned about like the arithmetic itself.
-/

namespace CallAtlas.Binary32

set_option autoImplicit false

/-- The binary64 float of the same value. -/
def widen (x : Float32) : Float :=
  let bits := x.toBits
  let sign : UInt64 := (bits >>> 31).toUInt64 <<< 63
  let exponent : UInt32 := (bits >>> 23) &&& 0xff
  let fraction : UInt64 := (bits &&& 0x7fffff).toUInt64
  if exponent = 0xff then
    Float.ofBits (sign ||| (0x7ff0000000000000 : UInt64) ||| (fraction <<< 29))
  else if exponent = 0 then
    let magnitude := fraction.toFloat * Float.ofBits 0x36a0000000000000
    Float.ofBits (sign ||| magnitude.toBits)
  else
    Float.ofBits (sign ||| ((exponent.toUInt64 + 896) <<< 52) ||| (fraction <<< 29))

/-- Drops the last `shift` bits of a significand, rounding to nearest and a tie to the even neighbour. -/
def roundShift (significand shift : UInt64) : UInt64 :=
  let quotient := significand >>> shift
  let remainder := significand - (quotient <<< shift)
  let half : UInt64 := 1 <<< (shift - 1)
  if half < remainder || (remainder = half && quotient &&& 1 = 1) then quotient + 1 else quotient

/-- The binary32 float nearest to a binary64 float. What is too large becomes infinite. -/
def narrow (x : Float) : Float32 :=
  let bits := x.toBits
  let sign : UInt32 := (bits >>> 63).toUInt32 <<< 31
  let exponent := (bits >>> 52) &&& 0x7ff
  let fraction := bits &&& 0xfffffffffffff
  let significand := fraction ||| 0x10000000000000
  if exponent = 0x7ff then
    if fraction = 0 then Float32.ofBits (sign ||| 0x7f800000) else Float32.ofBits 0x7fc00000
  else if 1150 < exponent then
    Float32.ofBits (sign ||| 0x7f800000)
  else if 897 ≤ exponent then
    let rounded := ((exponent - 897) <<< 23) + roundShift significand 29
    Float32.ofBits (sign ||| rounded.toUInt32)
  else if 872 ≤ exponent then
    Float32.ofBits (sign ||| (roundShift significand (926 - exponent)).toUInt32)
  else
    Float32.ofBits sign

/-- Length of the hypotenuse: squares, sum and root are taken with binary64 precision, and only the result
is rounded to binary32. -/
def hypot (x y : Float32) : Float32 :=
  let a := widen x
  let b := widen y
  narrow (a * a + b * b).sqrt

end CallAtlas.Binary32
