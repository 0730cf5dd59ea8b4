import CallAtlas.Number.Decimal
import CallAtlas.Text.Characters

/-!
Why a text could not be read: it breaks the grammar, it ends too early, or it is well formed and has the wrong
shape. `ReadError.message` holds the wording.
-/

namespace CallAtlas.Json

set_option autoImplicit false

/-- What stands in the place of something else. -/
inductive Found where
  | null
  | boolean (b : Bool)
  | natural (n : Nat)
  | negative (n : Nat)
  | real (x : Float)
  | text (s : String)
  | sequence
  | map

def Found.describe : Found → String
  | .null => "null"
  | .boolean b => "boolean `" ++ (if b then "true" else "false") ++ "`"
  | .natural n => "integer `" ++ toString n ++ "`"
  | .negative n => "integer `-" ++ toString (n + 1) ++ "`"
  | .real x => "floating point `" ++ Decimal.withPoint x ++ "`"
  | .text s => "string " ++ Text.quoted s
  | .sequence => "sequence"
  | .map => "map"

inductive Mismatch where
  | wrongType (found : Found) (expected : String)
  | wrongValue (found : Found) (expected : String)
  | repeatedField (name : String)
  | unknownVariant (name : String) (known : List String)
  /-- A payload that is neither of the two kinds of graph. -/
  | noPayload

def Mismatch.message : Mismatch → String
  | .wrongType found expected => "invalid type: " ++ found.describe ++ ", expected " ++ expected
  | .wrongValue found expected => "invalid value: " ++ found.describe ++ ", expected " ++ expected
  | .repeatedField name => "duplicate field `" ++ name ++ "`"
  | .unknownVariant name known =>
    "unknown variant `" ++ name ++ "`, expected one of " ++
      String.intercalate ", " (known.map fun k => "`" ++ k ++ "`")
  | .noPayload => "data did not match any variant of untagged enum Payload"

/-- How a text breaks the grammar. -/
inductive Flaw where
  | noValue
  | unknownWord
  | badNumber
  | numberTooLarge
  | badEscape
  /-- An escape names one half of a pair and no escape for the other half follows. -/
  | unpairedEscape
  /-- An escape names the half of a pair that cannot stand there. -/
  | strayHalf
  | controlCharacter
  | unquotedName
  | noColon
  | noListSeparator
  | noObjectSeparator
  | commaBeforeEnd
  | textBehindValue
  | tooDeep

def Flaw.message : Flaw → String
  | .noValue => "expected value"
  | .unknownWord => "expected ident"
  | .badNumber => "invalid number"
  | .numberTooLarge => "number out of range"
  | .badEscape => "invalid escape"
  | .unpairedEscape => "unexpected end of hex escape"
  | .strayHalf => "lone leading surrogate in hex escape"
  | .controlCharacter => "control character (\\u0000-\\u001F) found while parsing a string"
  | .unquotedName => "key must be a string"
  | .noColon => "expected `:`"
  | .noListSeparator => "expected `,` or `]`"
  | .noObjectSeparator => "expected `,` or `\x7d`"
  | .commaBeforeEnd => "trailing comma"
  | .textBehindValue => "trailing characters"
  | .tooDeep => "recursion limit exceeded"

/-- What was being read where a text ends too early. -/
inductive Unfinished where
  | value
  | list
  | object
  | string

def Unfinished.message : Unfinished → String
  | .value => "EOF while parsing a value"
  | .list => "EOF while parsing a list"
  | .object => "EOF while parsing an object"
  | .string => "EOF while parsing a string"

inductive ReadError where
  | malformed (flaw : Flaw)
  | truncated (inside : Unfinished)
  | mismatch (cause : Mismatch)

def ReadError.message : ReadError → String
  | .malformed flaw => flaw.message
  | .truncated inside => inside.message
  | .mismatch cause => cause.message

end CallAtlas.Json
