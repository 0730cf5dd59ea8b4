import CallAtlas.Number.Dyadic

/-!
Decimal text of floats.

`Decimal.shortest` is the number with the fewest digits among those that read back as a given binary64 float,
and `Decimal.fixed` writes a set number of places of the exact value. Both count in natural numbers.
-/

namespace CallAtlas

set_option autoImplicit false

/-- The number `digits * 10 ^ exponent`. -/
structure Decimal where
  digits : Nat
  exponent : Int
deriving DecidableEq

namespace Decimal

/-! ## Fewest digits -/

/-- The reals that round to one float, in quarters of the unit `2 ^ exponent` of its significand: the float
itself is `4 * significand`, and the ends belong to the interval if the significand is even. -/
structure Interval where
  low : Nat
  value : Nat
  high : Nat
  closed : Bool
  exponent : Int

/-- The interval of a positive float. Below a power of two the neighbour is half as far away. -/
def Interval.around (d : Dyadic) : Interval :=
  let atPowerOfTwo := d.significand = 0x10000000000000 ∧ -1074 < d.exponent
  { low := 4 * d.significand - (if atPowerOfTwo then 1 else 2)
    value := 4 * d.significand
    high := 4 * d.significand + 2
    closed := d.significand % 2 = 0
    exponent := d.exponent }

/-- The factors that turn a comparison of `c * 10 ^ p` with `n * 2 ^ (exponent - 2)` into one of
`c * denominator` with `n * numerator`. -/
def Interval.factors (i : Interval) (p : Int) : Nat × Nat :=
  (Nat.pow 2 (i.exponent - 2).toNat * Nat.pow 10 (-p).toNat, Nat.pow 10 p.toNat * Nat.pow 2 (2 - i.exponent).toNat)

/-- Which of two neighbours stands for a number halfway between them. -/
inductive Tie where
  | toLarger
  | toEven
deriving DecidableEq

/-- Whether a tie between `n` and `n + 1` goes to `n`. -/
def Tie.keeps (n : Nat) : Tie → Bool
  | .toLarger => false
  | .toEven => n % 2 = 0

/-- The point of the grid `10 ^ p` nearest to the float, if one lies in the interval. -/
def Interval.pick? (tie : Tie) (i : Interval) (p : Int) : Option Nat :=
  let (numerator, denominator) := i.factors p
  let below := i.value * numerator / denominator
  let inside (c : Nat) : Bool :=
    if i.closed then i.low * numerator ≤ c * denominator && c * denominator ≤ i.high * numerator
    else i.low * numerator < c * denominator && c * denominator < i.high * numerator
  let belowIn := below ≠ 0 && inside below
  let aboveIn := inside (below + 1)
  let down := i.value * numerator - below * denominator
  let up := (below + 1) * denominator - i.value * numerator
  if belowIn && (!aboveIn || down < up || (down = up && tie.keeps below)) then some below
  else if aboveIn then some (below + 1)
  else none

/-- The pick on the coarsest grid that has one, among `10 ^ p` and the `finer` grids below it. -/
def Interval.coarsest (tie : Tie) (i : Interval) (finer : Nat) (p : Int) : Decimal :=
  match i.pick? tie p, finer with
  | some digits, _ => ⟨digits, p⟩
  | none, 0 => ⟨0, p⟩
  | none, finer + 1 => i.coarsest tie finer (p - 1)

/-- The decimal with the fewest digits that reads back as a positive float. Seventeen digits are always
enough, and the search starts at a power of ten above the float. -/
def shortest (tie : Tie) (d : Dyadic) : Decimal :=
  let top := ((Nat.log2 d.significand + 1 : Int) + d.exponent) * 30103 / 100000 + 1
  (Interval.around d).coarsest tie 20 top

/-! ## Text -/

def zeros (n : Nat) : String := String.ofList (List.replicate n '0')

/-- Digits with a point and no exponent. -/
def positional (d : Decimal) : String :=
  let digits := (toString d.digits).toList
  let whole := (digits.length : Int) + d.exponent
  if 0 ≤ d.exponent then String.ofList digits ++ zeros d.exponent.toNat
  else if 0 < whole then
    String.ofList (digits.take whole.toNat) ++ "." ++ String.ofList (digits.drop whole.toNat)
  else "0." ++ zeros (-whole).toNat ++ String.ofList digits

/-- Text of a value that may fail to be finite. -/
def textOf (exact : Option Dyadic) (isNaN negative : Bool) (finite : Dyadic → String) : String :=
  match exact with
  | some d => (if d.negative then "-" else "") ++ finite d
  | none => if isNaN then "NaN" else if negative then "-inf" else "inf"

/-- A binary64 float with the fewest digits, no exponent and no point behind a whole number. A tie goes to the larger
neighbour. -/
def plain (x : Float) : String :=
  textOf (Dyadic.ofFloat? x) x.isNaN (x < 0.0) fun d =>
    if d.significand = 0 then "0" else (shortest .toLarger d).positional

/-- Digits with a point behind the first and the power of ten behind an `e`, always with its sign. -/
def scientific (d : Decimal) : String :=
  let digits := (toString d.digits).toList
  let power := (digits.length : Int) + d.exponent - 1
  String.ofList (digits.take 1) ++ (if digits.length ≤ 1 then "" else "." ++ String.ofList (digits.drop 1)) ++
    (if power < 0 then "e-" else "e+") ++ toString power.natAbs

/-- Positional text with at least one place from `10 ^ (-5)` up to below `10 ^ 16`, scientific text elsewhere. -/
def general (d : Decimal) : String :=
  let point := ((toString d.digits).length : Int) + d.exponent
  if -5 < point ∧ point ≤ 16 then if 0 ≤ d.exponent then d.positional ++ ".0" else d.positional else d.scientific

/-- A binary64 float with the fewest digits that show it to be a float. A tie goes to the even neighbour. -/
def withPoint (x : Float) : String :=
  textOf (Dyadic.ofFloat? x) x.isNaN (x < 0.0) fun d =>
    if d.significand = 0 then "0.0" else (shortest .toEven d).general

/-- The integer nearest to `num / den`; a tie goes to the even neighbour. -/
def roundHalfEven (num den : Nat) : Nat :=
  let quotient := num / den
  let rest := num % den
  if den < 2 * rest ∨ (2 * rest = den ∧ quotient % 2 = 1) then quotient + 1 else quotient

/-- A binary32 float with a set number of places, rounded from its exact value, a tie to even. -/
def fixed (places : Nat) (x : Float32) : String :=
  textOf (Dyadic.ofFloat32? x) x.isNaN (x < 0.0) fun d =>
    let (num, den) := d.fraction
    let scaled := roundHalfEven (num * Nat.pow 10 places) den
    let low := toString (scaled % Nat.pow 10 places)
    toString (scaled / Nat.pow 10 places) ++ "." ++ zeros (places - low.length) ++ low

end Decimal

end CallAtlas
