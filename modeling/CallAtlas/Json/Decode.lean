import CallAtlas.Json.Value

/-!
Decoding values that have been read: the typed content of a value, or nothing if it has another form.
-/

namespace CallAtlas.Json

set_option autoImplicit false

variable {τ : Type}

def string? : Json → Option String
  | .string s => some s
  | _ => none

def float? : Json → Option Float
  | .number n => some n.toFloat
  | _ => none

/-- A whole number that was written without sign, point and exponent. -/
def nat? : Json → Option Nat
  | .number (.natural n) => some n
  | _ => none

def isNull : Json → Bool
  | .null => true
  | _ => false

/-- Null, or a value of the given form. -/
def optional? (decode : Json → Option τ) : Json → Option (Option τ)
  | .null => some none
  | value => (decode value).map some

/-- A list all of whose items have the given form. -/
def list? (decode : Json → Option τ) : Json → Option (List τ)
  | .array items => items.mapM decode
  | _ => none

/-- A field that may be missing. -/
def orElse (missing : τ) (decode : Json → Option τ) : Option Json → Option τ
  | none => some missing
  | some value => decode value

/-- Whether a name stands more than once among the members of an object. -/
def repeats (name : String) (members : List (String × Json)) : Bool :=
  1 < (members.filter (·.1 = name)).length

/-- The values of the named fields of a record. It is written as an object, where none of these names may be
repeated, or as an array of the fields in order, where the last ones may be missing. -/
def fields? (names : List String) : Json → Option (List (Option Json))
  | .object members =>
    if names.any fun name => repeats name members then none
    else some (names.map fun name => Table.lookup name members)
  | .array items =>
    if names.length < items.length then none
    else some (names.zipIdx.map fun (_, position) => items[position]?)
  | _ => none

end CallAtlas.Json
