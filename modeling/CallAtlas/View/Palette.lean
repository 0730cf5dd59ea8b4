import CallAtlas.Number.Binary32
import CallAtlas.Number.Scalar
import CallAtlas.Graph.CallGraph

/-!
Colors, and the color of a node by one of its metrics.

The palette runs from dark violet to yellow through ten stops and stands for values from 0 to 10.
-/

namespace CallAtlas

set_option autoImplicit false

structure Color where
  red : UInt8
  green : UInt8
  blue : UInt8
  alpha : UInt8
deriving DecidableEq

namespace Color

def rgb (red green blue : UInt8) : Color := ⟨red, green, blue, 255⟩

def gray (level : UInt8) : Color := ⟨level, level, level, 255⟩

end Color

namespace Palette

def stops : Vector (UInt8 × UInt8 × UInt8) 10 :=
  #v[(0x44, 0x01, 0x54), (0x48, 0x28, 0x78), (0x3e, 0x49, 0x89), (0x31, 0x68, 0x8e), (0x26, 0x82, 0x8e),
     (0x1f, 0x9e, 0x89), (0x35, 0xb7, 0x79), (0x6e, 0xce, 0x58), (0xb5, 0xde, 0x2b), (0xfd, 0xe7, 0x25)]

/-- The byte nearest to a float; a half goes up. -/
def nearestByte (x : Float32) : UInt8 :=
  let whole := x.toUInt32
  let rounded := if 0.5 ≤ x - whole.toFloat32 then whole + 1 else whole
  if 255 ≤ rounded then 255 else rounded.toUInt8

/-- A channel between two stops. -/
def blend (start stop : UInt8) (t : Float32) : UInt8 :=
  nearestByte (start.toFloat32 + (stop.toFloat32 - start.toFloat32) * t)

/-- The color at a place from 0 to 1. A place outside is moved to the nearer end, one that is not finite to 0. -/
def colorAt (t : Float32) : Color :=
  let t : Float32 := if t.isFinite then (if t < 0.0 then 0.0 else if 1.0 < t then 1.0 else t) else 0.0
  let scaled := t * 9.0
  let lower : Fin 9 := ⟨min scaled.toUInt32.toNat 8, by omega⟩
  let rest := scaled - Float32.ofNat lower
  let (r, g, b) := stops.get lower.castSucc
  let (r', g', b') := stops.get lower.succ
  .rgb (blend r r' rest) (blend g g' rest) (blend b b' rest)

/-- The color of a value. -/
def colorOf (value : Float) : Color :=
  let value : Float := if value.isFinite then value else 0.0
  let clamped : Float := if value < 0.0 then 0.0 else if 10.0 < value then 10.0 else value
  colorAt (Binary32.narrow (clamped / 10.0))

/-- The metric that nodes are colored by at first. -/
def standardMetric : String := "complexity"

/-- The color of a node by a metric. -/
def colorFor (metric : String) (v : Vertex) : Color := colorOf (v.metric metric)

end Palette

end CallAtlas
