import CallAtlas.Json.Lexeme

/-!
Passing over a value that nobody asked for. The value has to keep to the grammar and no more: its nesting has no
limit and its numbers no range.
-/

namespace CallAtlas.Json

set_option autoImplicit false

/-- Passes over the quoted name of a member and the colon behind it. -/
def skipName (s : List Char) : Except ReadError (Taken Unit s) :=
  match next? s with
  | none => .error (.truncated .object)
  | some t =>
    if t.value = '"' then do
      let name ← skipString t.rest
      let colon ← readColon name.rest
      .ok (t.append (name.append colon))
    else .error (.malformed .unquotedName)

mutual

def skipValue (s : List Char) : Except ReadError (Taken Unit s) :=
  match next? s with
  | none => .error (.truncated .value)
  | some t =>
    have := t.shorter
    if t.value = '"' then (skipString t.rest).map t.append
    else if t.value = '[' then (skipArray t.rest).map t.append
    else if t.value = '\x7b' then (skipObject t.rest).map t.append
    else if t.value = 'n' then readWord () ['u', 'l', 'l'] t
    else if t.value = 't' then readWord () ['r', 'u', 'e'] t
    else if t.value = 'f' then readWord () ['a', 'l', 's', 'e'] t
    else if startsNumber t.value then skipNumber s
    else .error (.malformed .noValue)
termination_by (s.length, 0)

/-- Passes over an array whose bracket has been read. -/
def skipArray (s : List Char) : Except ReadError (Taken Unit s) :=
  match next? s with
  | none => .error (.truncated .list)
  | some t => if t.value = ']' then .ok (t.map fun _ => ()) else skipItems s
termination_by (s.length, 2)

def skipItems (s : List Char) : Except ReadError (Taken Unit s) := do
  let item ← skipValue s
  have := item.shorter
  match next? item.rest with
  | none => .error (.truncated .list)
  | some t =>
    have := t.shorter
    if t.value = ',' then (skipItems t.rest).map fun items => item.append (t.append items)
    else if t.value = ']' then .ok ((item.append t).map fun _ => ())
    else .error (.malformed .noListSeparator)
termination_by (s.length, 1)

/-- Passes over an object whose brace has been read. -/
def skipObject (s : List Char) : Except ReadError (Taken Unit s) :=
  match next? s with
  | none => .error (.truncated .object)
  | some t => if t.value = '\x7d' then .ok (t.map fun _ => ()) else skipMembers s
termination_by (s.length, 2)

def skipMembers (s : List Char) : Except ReadError (Taken Unit s) := do
  let name ← skipName s
  have := name.shorter
  let value ← skipValue name.rest
  have := value.shorter
  match next? value.rest with
  | none => .error (.truncated .object)
  | some t =>
    have := t.shorter
    if t.value = ',' then (skipMembers t.rest).map fun members => name.append (value.append (t.append members))
    else if t.value = '\x7d' then .ok ((name.append (value.append t)).map fun _ => ())
    else .error (.malformed .noObjectSeparator)
termination_by (s.length, 1)

end

end CallAtlas.Json
