import CallAtlas.Number.Binary32

/-!
Sine and cosine of binary32 floats.

The angle is brought into `[-π/4, π/4]` around a multiple of `π/2` with binary64 arithmetic (angles of 120 and
more with a fixed-point table of `4/π`), and a short polynomial gives the value, rounded once at the end.
-/

namespace CallAtlas.Binary32

set_option autoImplicit false

/-! ## Range reduction -/

/-- An angle as a remainder and the number of quarter turns taken off. -/
structure Reduced where
  quarters : Int
  rest : Float

/-- Half a turn over two, `π/2`. -/
def quarterTurn : Float := Float.ofBits 0x3ff921fb54442d18

/-- Reduction of an angle below 120 in magnitude: the number of quarter turns is the nearest integer of the
angle over `π/2`, taken in units of `2⁻²⁴`. -/
def reduceSmall (x : Float) : Reduced :=
  let scaled := x * Float.ofBits 0x41645f306dc9c883
  let quarters := (scaled.toInt64.toInt + 0x800000) / 0x1000000
  ⟨quarters, x - Float.ofInt quarters * quarterTurn⟩

/-- The binary digits of `4/π` in overlapping words, each eight digits further than the one before. -/
def inversePiWords : Vector UInt32 24 :=
  #v[0xa2, 0xa2f9, 0xa2f983, 0xa2f9836e, 0xf9836e4e, 0x836e4e44, 0x6e4e4415, 0x4e441529,
     0x441529fc, 0x1529fc27, 0x29fc2757, 0xfc2757d1, 0x2757d1f5, 0x57d1f534, 0xd1f534dd, 0xf534ddc0,
     0x34ddc0db, 0xddc0db62, 0xc0db6295, 0xdb629599, 0x6295993c, 0x95993c43, 0x993c4390, 0x3c439041]

/-- Reduction of a large angle, given by the bits of its magnitude. The significand is multiplied with the
words of `4/π` that reach the binary point; the two top bits of the product count quarter turns. -/
def reduceLarge (bits : UInt32) : Reduced :=
  let start := ((bits >>> 26) &&& 15).toNat
  let shift : UInt32 := (bits >>> 23) &&& 7
  let significand : UInt32 := ((bits &&& 0xffffff) ||| 0x800000) <<< shift
  let word (k : Nat) : UInt32 := inversePiWords[start + k]?.getD 0
  let high : UInt64 := (significand * word 0).toUInt64
  let middle : UInt64 := significand.toUInt64 * (word 4).toUInt64
  let low : UInt64 := significand.toUInt64 * (word 8).toUInt64
  let product : UInt64 := ((low >>> 32) ||| (high <<< 32)) + middle
  let quarters : UInt64 := (product + 0x2000000000000000) >>> 62
  let rest := (product - (quarters <<< 62)).toInt64
  ⟨quarters.toNat, rest.toFloat * Float.ofBits 0x3c1921fb54442d18⟩

/-! ## Polynomials -/

/-- Sine of a reduced angle `x` with square `x2`. -/
def sinePolynomial (x x2 : Float) : Float :=
  let x3 := x * x2
  let tail := Float.ofBits 0x3f81107605230bc4 + x2 * Float.ofBits 0xbf2994eb3774cf24
  let x7 := x3 * x2
  let head := x + x3 * Float.ofBits 0xbfc555545995a603
  head + x7 * tail

/-- Cosine of a reduced angle with square `x2`, negated if asked. -/
def cosinePolynomial (negated : Bool) (x2 : Float) : Float :=
  let coefficient (bits : UInt64) : Float := if negated then -Float.ofBits bits else Float.ofBits bits
  let x4 := x2 * x2
  let tail := coefficient 0xbf56c087e89a359d + x2 * coefficient 0x3ef99343027bf8c3
  let head := coefficient 0x3ff0000000000000 + x2 * coefficient 0xbfdffffffd0c621c
  let x6 := x4 * x2
  (head + x4 * coefficient 0x3fa55553e1068f19) + x6 * tail

/-! ## The functions -/

/-- Value at an angle after reduction; `phase` counts quarter turns with the sign of the angle taken in, and
`odd` tells whether the other of the two polynomials is due. -/
def trigonometric (reduced : Reduced) (phase : Int) (odd : Bool) : Float32 :=
  let quadrant := phase % 4
  let x := if quadrant = 1 ∨ quadrant = 2 then reduced.rest * (-1.0) else reduced.rest
  let x2 := reduced.rest * reduced.rest
  if odd then narrow (cosinePolynomial (quadrant = 2 ∨ quadrant = 3) x2) else narrow (sinePolynomial x x2)

/-- Quarter turns, remainder and phase of an angle of at least 0.75 in magnitude. -/
def reduce (x : Float32) (magnitude : UInt32) : Reduced × Int :=
  if magnitude < 0x42f00000 then
    let reduced := reduceSmall (widen x)
    (reduced, reduced.quarters)
  else
    let reduced := reduceLarge x.toBits
    (reduced, reduced.quarters + (x.toBits >>> 31).toNat)

def sin (x : Float32) : Float32 :=
  let magnitude : UInt32 := x.toBits &&& 0x7fffffff
  if magnitude < 0x39800000 then x
  else if magnitude < 0x3f400000 then narrow (sinePolynomial (widen x) (widen x * widen x))
  else if magnitude < 0x7f800000 then
    let (reduced, phase) := reduce x magnitude
    trigonometric reduced phase (reduced.quarters % 2 = 1)
  else Float32.ofBits 0x7fc00000

def cos (x : Float32) : Float32 :=
  let magnitude : UInt32 := x.toBits &&& 0x7fffffff
  if magnitude < 0x39800000 then 1.0
  else if magnitude < 0x3f400000 then narrow (cosinePolynomial false (widen x * widen x))
  else if magnitude < 0x7f800000 then
    let (reduced, phase) := reduce x magnitude
    trigonometric reduced phase (reduced.quarters % 2 = 0)
  else Float32.ofBits 0x7fc00000

end CallAtlas.Binary32

namespace CallAtlas

instance : Scalar Float32 where
  natCast := Float32.ofNat
  decidableLT := inferInstance
  decidableLE := inferInstance
  isFinite := Float32.isFinite
  sqrt := Float32.sqrt
  hypot := Binary32.hypot
  sin := Binary32.sin
  cos := Binary32.cos

end CallAtlas
