import CallAtlas.Payload.CallMap
import CallAtlas.Settings.Reader

/-!
Loading graphs and settings from files.

A file is given by its path and its bytes, or by the reason why it has none. A failure says what was being done,
the outermost action first, and why it failed.
-/

namespace CallAtlas

set_option autoImplicit false

inductive FileError where
  | notFound
  | notText

def FileError.kind : FileError → String
  | .notFound => "NotFound"
  | .notText => "InvalidData"

def FileError.message : FileError → String
  | .notFound => "No such file or directory (os error 2)"
  | .notText => "stream did not contain valid UTF-8"

inductive LoadCause where
  | file (error : FileError)
  | text (error : Json.ReadError)

def LoadCause.message : LoadCause → String
  | .file error => error.message
  | .text error => error.message

structure LoadError where
  context : List String
  cause : LoadCause

/-- What was being done and why it failed, in one line. -/
def LoadError.message (e : LoadError) : String := String.intercalate ": " (e.context ++ [e.cause.message])

/-- The text of a file, if it is there and is text. -/
def textOf (bytes : Option ByteArray) : Except FileError String :=
  match bytes with
  | none => .error .notFound
  | some bytes =>
    match String.fromUTF8? bytes with
    | some text => .ok text
    | none => .error .notText

def GraphSpec.load (path : String) (bytes : Option ByteArray) : Except LoadError GraphSpec :=
  match textOf bytes with
  | .error e => .error ⟨["failed to read graph payload " ++ path], .file e⟩
  | .ok text =>
    (GraphSpec.parse text).mapError fun e =>
      ⟨["failed to parse graph payload " ++ path, "invalid graph JSON"], .text e⟩

/-- Settings from a file are sanitized. -/
def Settings.load (path : String) (bytes : Option ByteArray) : Except LoadError (Settings Float32) :=
  match textOf bytes with
  | .error e => .error ⟨["failed to read config file " ++ path], .file e⟩
  | .ok text =>
    match Settings.parse text with
    | .ok settings => .ok settings.sanitized
    | .error e => .error ⟨["invalid config JSON in " ++ path], .text e⟩

end CallAtlas
