import CallAtlas.Table

/-!
Values of the data format that graphs and settings are written in.

An object keeps its members in the order of the text, repeated names included; what a repeated name means is
for the reader of the object to say.
-/

namespace CallAtlas

set_option autoImplicit false

namespace Json

/-- A number as it was written: a whole number that fits in 64 bits, or a binary64 float. -/
inductive Number where
  | natural (n : Nat)
  /-- The number `-(n + 1)`. -/
  | negative (n : Nat)
  | real (x : Float)

/-- The binary64 float nearest to a number. -/
def Number.toFloat : Number → Float
  | .natural n => n.toFloat
  | .negative n => -(n + 1).toFloat
  | .real x => x

end Json

inductive Json where
  | null
  | bool (b : Bool)
  | number (n : Json.Number)
  | string (s : String)
  | array (items : List Json)
  | object (members : List (String × Json))

namespace Json

mutual

/-- The same value with the members of every object sorted by name, of each name the last one. -/
def normalize : Json → Json
  | .array items => .array (normalizeItems items)
  | .object members => .object (Table.ofList (normalizeMembers members))
  | other => other

def normalizeItems : List Json → List Json
  | [] => []
  | item :: rest => normalize item :: normalizeItems rest

def normalizeMembers : List (String × Json) → List (String × Json)
  | [] => []
  | (name, value) :: rest => (name, normalize value) :: normalizeMembers rest

end

end Json

end CallAtlas
