import CallAtlas.Json.Record

/-!
The three ways to lay out a graph.
-/

namespace CallAtlas

set_option autoImplicit false

inductive LayoutMode where
  | force
  | hierarchical
  | radial
deriving DecidableEq

namespace LayoutMode

def all : List LayoutMode := [.force, .hierarchical, .radial]

def label : LayoutMode → String
  | .force => "force"
  | .hierarchical => "hierarchical"
  | .radial => "radial"

/-- Whether the simulation moves the nodes in this mode. -/
def isSimulated : LayoutMode → Bool
  | .hierarchical => false
  | _ => true

/-! ## As text -/

def ofLabel? (text : String) : Option LayoutMode := all.find? (·.label = text)

/-- The same, where capital letters of ASCII stand for small ones. -/
def ofLabelIgnoringCase? (text : String) : Option LayoutMode :=
  all.find? fun mode => mode.label.toList = text.toList.map Char.toLower

open Json

def ofVariant (name : String) : Except ReadError LayoutMode :=
  match ofLabel? name with
  | some mode => .ok mode
  | none => .error (.mismatch (.unknownVariant name (all.map label)))

/-- Reads the object form of a mode, the brace of which has been read. An object without a member is none. -/
def readObjectForm (s : List Char) : Except ReadError (Taken LayoutMode s) := do
  if comesNext '\x7d' s then throw (.malformed .unquotedName)
  let key ← readKey s
  let mode ← ofVariant key.value
  let colon ← readColon key.rest
  match next? colon.rest with
  | none => throw (.truncated .value)
  | some t =>
    if t.value = 'n' then
      let word ← readWord () ['u', 'l', 'l'] t
      match next? word.rest with
      | none => throw (.truncated .object)
      | some brace =>
        if brace.value = '\x7d' then pure ((key.append (colon.append (word.append brace))).map fun _ => mode)
        else throw (.malformed .noValue)
    else throw (mismatchAt "unit" colon.rest)

/-- Reads a mode: its label as a string, or an object with the label as its only name and null behind it. -/
def read : Reader LayoutMode := fun s =>
  match next? s with
  | none => .error (.truncated .value)
  | some t =>
    if t.value = '"' then do
      let name ← readString t.rest
      let mode ← ofVariant name.value
      pure ((t.append name).map fun _ => mode)
    else if t.value = '\x7b' then (readObjectForm t.rest).map t.append
    else .error (.malformed .noValue)

def parse (text : String) : Except ReadError LayoutMode := readDocument read text

end LayoutMode

end CallAtlas
