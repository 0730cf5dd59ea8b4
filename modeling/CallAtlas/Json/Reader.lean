import CallAtlas.Json.Lexeme

/-!
Reading a whole value.

Arrays and objects nest at most 127 deep. `readValue` leaves what follows the value for its caller, who may have
something to say about the value before the rest of the text is looked at.
-/

namespace CallAtlas.Json

set_option autoImplicit false

mutual

/-- Reads a value with at most `depth` levels of arrays and objects. -/
def readValue (depth : Nat) (s : List Char) : Except ReadError (Taken Json s) :=
  match next? s with
  | none => .error (.truncated .value)
  | some t =>
    have := t.shorter
    if t.value = '"' then (readString t.rest).map fun u => (t.append u).map Json.string
    else if t.value = '[' then
      match depth with
      | 0 => .error (.malformed .tooDeep)
      | depth + 1 => (readArray depth t.rest).map t.append
    else if t.value = '\x7b' then
      match depth with
      | 0 => .error (.malformed .tooDeep)
      | depth + 1 => (readObject depth t.rest).map t.append
    else if t.value = 'n' then readWord .null ['u', 'l', 'l'] t
    else if t.value = 't' then readWord (.bool true) ['r', 'u', 'e'] t
    else if t.value = 'f' then readWord (.bool false) ['a', 'l', 's', 'e'] t
    else if startsNumber t.value then (readNumber s).map fun u => u.map Json.number
    else .error (.malformed .noValue)
termination_by (s.length, 0)

/-- Reads an array whose bracket has been read. -/
def readArray (depth : Nat) (s : List Char) : Except ReadError (Taken Json s) :=
  match next? s with
  | none => .error (.truncated .list)
  | some t =>
    if t.value = ']' then .ok (t.map fun _ => .array [])
    else (readItems depth s).map fun u => u.map Json.array
termination_by (s.length, 2)

/-- Reads the items of an array from the next one on. -/
def readItems (depth : Nat) (s : List Char) : Except ReadError (Taken (List Json) s) := do
  let item ← readValue depth s
  have := item.shorter
  match next? item.rest with
  | none => .error (.truncated .list)
  | some t =>
    have := t.shorter
    if t.value = ',' then
      if comesNext ']' t.rest then .error (.malformed .commaBeforeEnd)
      else do
        let items ← readItems depth t.rest
        .ok ((item.append (t.append items)).map (item.value :: ·))
    else if t.value = ']' then .ok ((item.append t).map fun _ => [item.value])
    else .error (.malformed .noListSeparator)
termination_by (s.length, 1)

/-- Reads an object whose brace has been read. -/
def readObject (depth : Nat) (s : List Char) : Except ReadError (Taken Json s) :=
  match next? s with
  | none => .error (.truncated .object)
  | some t =>
    if t.value = '\x7d' then .ok (t.map fun _ => .object [])
    else (readMembers depth s).map fun u => u.map Json.object
termination_by (s.length, 2)

/-- Reads the members of an object from the next one on. -/
def readMembers (depth : Nat) (s : List Char) : Except ReadError (Taken (List (String × Json)) s) := do
  let name ← readName s
  have := name.shorter
  let value ← readValue depth name.rest
  have := value.shorter
  match next? value.rest with
  | none => .error (.truncated .object)
  | some t =>
    have := t.shorter
    if t.value = ',' then do
      let members ← readMembers depth t.rest
      .ok ((name.append (value.append (t.append members))).map ((name.value, value.value) :: ·))
    else if t.value = '\x7d' then .ok ((name.append (value.append t)).map fun _ => [(name.value, value.value)])
    else .error (.malformed .noObjectSeparator)
termination_by (s.length, 1)

end

/-- The deepest nesting of arrays and objects that is read. -/
def maxDepth : Nat := 127

/-- Refuses a text that goes on after its value. -/
def readEnd (s : List Char) : Except ReadError Unit :=
  if (trim s).isEmpty then .ok () else .error (.malformed .textBehindValue)

end CallAtlas.Json
