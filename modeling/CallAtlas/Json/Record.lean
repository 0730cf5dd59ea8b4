import CallAtlas.Json.Reader
import CallAtlas.Json.Skip

/-!
Reading records of a known form straight from the text.

A record is written as an object, its fields in any order and each at most once, or as an array of its fields in
the order of declaration; fields that are left out keep the value they have. The text is judged from left to right,
so a field of the wrong type is reported before a fault of the grammar further on.
-/

namespace CallAtlas.Json

set_option autoImplicit false

/-! ## Single values -/

/-- The error of meeting what stands at the front of `s` where `expected` was due. -/
def mismatchAt (expected : String) (s : List Char) : ReadError :=
  let wrong (found : Found) : ReadError := .mismatch (.wrongType found expected)
  let orElse {τ : Type} (read : Except ReadError (Taken τ s)) (found : τ → Found) : ReadError :=
    match read with
    | .ok t => wrong (found t.value)
    | .error e => e
  match next? s with
  | none => .truncated .value
  | some t =>
    if t.value = 'n' then orElse (readWord () ['u', 'l', 'l'] t) fun _ => .null
    else if t.value = 't' then orElse (readWord () ['r', 'u', 'e'] t) fun _ => .boolean true
    else if t.value = 'f' then orElse (readWord () ['a', 'l', 's', 'e'] t) fun _ => .boolean false
    else if t.value = '"' then orElse ((readString t.rest).map t.append) .text
    else if t.value = '[' then wrong .sequence
    else if t.value = '\x7b' then wrong .map
    else if startsNumber t.value then
      orElse (readNumber s) fun
        | .natural n => .natural n
        | .negative n => .negative n
        | .real x => .real x
    else .malformed .noValue

/-- Reads a number and judges it. -/
def readNumberAs {τ : Type} (expected : String) (accept : Number → Except Mismatch τ) : Reader τ := fun s =>
  if (next? s).any fun t => startsNumber t.value then do
    let number ← readNumber s
    match accept number.value with
    | .ok value => .ok (number.map fun _ => value)
    | .error cause => .error (.mismatch cause)
  else .error (mismatchAt expected s)

/-- The binary32 float nearest to a number. A float goes there through binary64. -/
def Number.toFloat32 : Number → Float32
  | .natural n => Float32.ofNat n
  | .negative n => -Float32.ofNat (n + 1)
  | .real x => Binary32.narrow x

def readFloat32 : Reader Float32 := readNumberAs "f32" fun n => .ok n.toFloat32

def readNat : Reader Nat := readNumberAs "usize" fun
  | .natural n => .ok n
  | .negative n => .error (.wrongValue (.negative n) "usize")
  | .real x => .error (.wrongType (.real x) "usize")

/-- Reads a string, or null for none. -/
def readOptionalString : Reader (Option String) := fun s =>
  match next? s with
  | none => .error (.truncated .value)
  | some t =>
    if t.value = 'n' then readWord none ['u', 'l', 'l'] t
    else if t.value = '"' then (readString t.rest).map fun u => (t.append u).map some
    else .error (mismatchAt "a string" s)

/-! ## Records -/

/-- A field of a record: how its value is read and entered. -/
structure Field (σ : Type) where
  name : String
  read : σ → Reader σ

/-- A field from a reader of its value. -/
def Field.of {σ τ : Type} (name : String) (read : Reader τ) (enter : σ → τ → σ) : Field σ :=
  ⟨name, fun record s => (read s).map fun t => t.map (enter record)⟩

variable {σ : Type}

/-- Reads the members of a record from the next one on; `seen` holds the fields read so far. -/
def readFields (fields : List (Field σ)) (seen : List String) (record : σ) (s : List Char) :
    Except ReadError (Taken σ s) := do
  let key ← readKey s
  have := key.shorter
  let value ←
    match fields.find? (·.name = key.value) with
    | some field =>
      if seen.contains field.name then throw (.mismatch (.repeatedField field.name))
      else do
        let colon ← readColon key.rest
        (field.read record colon.rest).map colon.append
    | none => do
      let colon ← readColon key.rest
      (skipValue colon.rest).map fun t => (colon.append t).map fun _ => record
  have := value.shorter
  match next? value.rest with
  | none => .error (.truncated .object)
  | some t =>
    have := t.shorter
    if t.value = ',' then
      (readFields fields (key.value :: seen) value.value t.rest).map fun u => key.append (value.append (t.append u))
    else if t.value = '\x7d' then .ok ((key.append (value.append t)).map fun _ => value.value)
    else .error (.malformed .noObjectSeparator)
termination_by s.length

/-- Reads the end of an array whose last wanted item has been read. -/
def readArrayEnd (s : List Char) : Except ReadError (Taken Unit s) :=
  match next? s with
  | none => .error (.truncated .list)
  | some t =>
    if t.value = ']' then .ok (t.map fun _ => ())
    else if t.value = ',' ∧ comesNext ']' t.rest then .error (.malformed .commaBeforeEnd)
    else .error (.malformed .textBehindValue)

/-- Reads the items of a record written as an array, the first of which has no comma in front. -/
def readPositions (fields : List (Field σ)) (first : Bool) (record : σ) (s : List Char) :
    Except ReadError (Taken σ s) :=
  match fields with
  | [] => (readArrayEnd s).map fun t => t.map fun _ => record
  | field :: fields =>
    match next? s with
    | none => .error (.truncated .list)
    | some t =>
      if t.value = ']' then .ok (t.map fun _ => record)
      else if first then do
        let value ← field.read record s
        (readPositions fields false value.value value.rest).map value.append
      else if t.value = ',' then
        if (next? t.rest).isNone then .error (.truncated .value)
        else if comesNext ']' t.rest then .error (.malformed .commaBeforeEnd)
        else do
          let value ← field.read record t.rest
          (readPositions fields false value.value value.rest).map fun u => t.append (value.append u)
      else .error (.malformed .noListSeparator)

/-- Reads a record over the values it starts with; `name` is what messages call it. -/
def readRecord (name : String) (fields : List (Field σ)) (record : σ) : Reader σ := fun s =>
  match next? s with
  | none => .error (.truncated .value)
  | some t =>
    if t.value = '\x7b' then
      match next? t.rest with
      | none => .error (.truncated .object)
      | some u =>
        if u.value = '\x7d' then .ok ((t.append u).map fun _ => record)
        else (readFields fields [] record t.rest).map t.append
    else if t.value = '[' then (readPositions fields true record t.rest).map t.append
    else .error (mismatchAt ("struct " ++ name) s)

/-- Reads a text that holds one value and nothing else. -/
def readDocument {τ : Type} (read : Reader τ) (text : String) : Except ReadError τ := do
  let taken ← read text.toList
  readEnd taken.rest
  pure taken.value

end CallAtlas.Json
