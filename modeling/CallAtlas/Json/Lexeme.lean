import CallAtlas.Json.Value
import CallAtlas.Json.Mismatch

/-!
The words of the data format: blanks, literals, strings and numbers.

Every reader takes a list of characters and gives back what it read with the rest, which is shorter than what it
was given. Readers of longer things recurse on that.
-/

namespace CallAtlas.Json

set_option autoImplicit false

/-- A value taken from the front of `s`, and what is left. -/
structure Taken (τ : Type) (s : List Char) where
  value : τ
  rest : List Char
  shorter : rest.length < s.length

namespace Taken

variable {τ υ : Type} {r s : List Char}

/-- What was taken from a tail was taken from the whole. -/
def grow (t : Taken τ r) (h : r.length ≤ s.length) : Taken τ s := ⟨t.value, t.rest, Nat.lt_of_lt_of_le t.shorter h⟩

def map (f : τ → υ) (t : Taken τ s) : Taken υ s := ⟨f t.value, t.rest, t.shorter⟩

/-- What was taken behind something else was taken from the whole. -/
def append (t : Taken τ s) (u : Taken υ t.rest) : Taken υ s := ⟨u.value, u.rest, Nat.lt_trans u.shorter t.shorter⟩

end Taken

/-- A reader of values of type `τ`. -/
abbrev Reader (τ : Type) : Type := (s : List Char) → Except ReadError (Taken τ s)

/-! ## Blanks and single characters -/

def isBlank (c : Char) : Bool := c = ' ' || c = '\n' || c = '\t' || c = '\r'

def trim (s : List Char) : List Char := s.dropWhile isBlank

theorem length_dropWhile_le (p : Char → Bool) (s : List Char) : (s.dropWhile p).length ≤ s.length := by
  induction s with
  | nil => exact Nat.le_refl _
  | cons c rest ih =>
    rw [List.dropWhile_cons]
    split
    · exact Nat.le_succ_of_le ih
    · exact Nat.le_refl _

theorem length_trim_le (s : List Char) : (trim s).length ≤ s.length := length_dropWhile_le isBlank s

/-- The first character. -/
def char? : (s : List Char) → Option (Taken Char s)
  | [] => none
  | c :: rest => some ⟨c, rest, Nat.lt_succ_self _⟩

/-- The first character that is not blank. -/
def next? (s : List Char) : Option (Taken Char s) := (char? (trim s)).map fun t => t.grow (length_trim_le s)

/-- Whether the first character that is not blank is the given one. -/
def comesNext (c : Char) (s : List Char) : Bool := (next? s).any fun t => t.value = c

/-- Reads the remaining letters of a word that stands for a value. -/
def readWord {τ υ : Type} {s : List Char} (value : υ) : List Char → Taken τ s → Except ReadError (Taken υ s)
  | [], t => .ok (t.map fun _ => value)
  | letter :: letters, t =>
    match char? t.rest with
    | none => .error (.truncated .value)
    | some u => if u.value = letter then readWord value letters (t.append u) else .error (.malformed .unknownWord)

/-! ## Strings -/

/-- The character that a letter stands for behind a backslash. -/
def escaped? (c : Char) : Option Char :=
  match c with
  | '"' => some '"'
  | '\\' => some '\\'
  | '/' => some '/'
  | 'b' => some '\x08'
  | 'f' => some '\x0c'
  | 'n' => some '\n'
  | 'r' => some '\r'
  | 't' => some '\t'
  | _ => none

def hexDigit? (c : Char) : Option Nat :=
  if '0' ≤ c ∧ c ≤ '9' then some (c.toNat - '0'.toNat)
  else if 'a' ≤ c ∧ c ≤ 'f' then some (c.toNat - 'a'.toNat + 10)
  else if 'A' ≤ c ∧ c ≤ 'F' then some (c.toNat - 'A'.toNat + 10)
  else none

/-- The code unit of four hexadecimal digits. -/
def hexUnit? (a b c d : Char) : Option Nat := do
  let a ← hexDigit? a
  let b ← hexDigit? b
  let c ← hexDigit? c
  let d ← hexDigit? d
  pure (((a * 16 + b) * 16 + c) * 16 + d)

def isHighSurrogate (n : Nat) : Bool := 0xd800 ≤ n && n ≤ 0xdbff

def isLowSurrogate (n : Nat) : Bool := 0xdc00 ≤ n && n ≤ 0xdfff

/-- The error of an escape that lacks some of its four digits: the text is cut off if fewer than four bytes are
left of it. -/
def shortEscape (s : List Char) : ReadError :=
  if (String.ofList s).utf8ByteSize < 4 then .truncated .string else .malformed .badEscape

/-- Reads the string whose opening quote has been read; `taken` holds its first characters in reverse. -/
def readStringFrom (taken : List Char) : Reader String
  | [] => .error (.truncated .string)
  | '"' :: rest => .ok ⟨String.ofList taken.reverse, rest, by simp⟩
  | ['\\'] => .error (.truncated .string)
  | '\\' :: 'u' :: a :: b :: c :: d :: rest =>
    match hexUnit? a b c d with
    | none => .error (.malformed .badEscape)
    | some unit =>
      if isLowSurrogate unit then .error (.malformed .strayHalf)
      else if isHighSurrogate unit then
        match rest with
        | '\\' :: 'u' :: e :: f :: g :: h :: rest' =>
          match hexUnit? e f g h with
          | none => .error (.malformed .badEscape)
          | some low =>
            if isLowSurrogate low then
              let c := Char.ofNat (0x10000 + (unit - 0xd800) * 0x400 + (low - 0xdc00))
              (readStringFrom (c :: taken) rest').map (·.grow (by simp only [List.length_cons]; omega))
            else .error (.malformed .strayHalf)
        | '\\' :: 'u' :: short => .error (shortEscape short)
        | [] => .error (.truncated .string)
        | ['\\'] => .error (.truncated .string)
        | _ => .error (.malformed .unpairedEscape)
      else
        (readStringFrom (Char.ofNat unit :: taken) rest).map (·.grow (by simp only [List.length_cons]; omega))
  | '\\' :: 'u' :: short => .error (shortEscape short)
  | '\\' :: letter :: rest =>
    match escaped? letter with
    | some c => (readStringFrom (c :: taken) rest).map (·.grow (by simp only [List.length_cons]; omega))
    | none => .error (.malformed .badEscape)
  | c :: rest =>
    if c.toNat < 0x20 then .error (.malformed .controlCharacter)
    else (readStringFrom (c :: taken) rest).map (·.grow (Nat.le_succ _))

/-- Reads a string whose opening quote has been read. -/
def readString : Reader String := readStringFrom []

/-- Passes over a string whose opening quote has been read. An escape may name half of a surrogate pair. -/
def skipString : Reader Unit
  | [] => .error (.truncated .string)
  | '"' :: rest => .ok ⟨(), rest, by simp⟩
  | ['\\'] => .error (.truncated .string)
  | '\\' :: 'u' :: a :: b :: c :: d :: rest =>
    match hexUnit? a b c d with
    | none => .error (.malformed .badEscape)
    | some _ => (skipString rest).map (·.grow (by simp only [List.length_cons]; omega))
  | '\\' :: 'u' :: short => .error (shortEscape short)
  | '\\' :: letter :: rest =>
    match escaped? letter with
    | some _ => (skipString rest).map (·.grow (by simp only [List.length_cons]; omega))
    | none => .error (.malformed .badEscape)
  | c :: rest =>
    if c.toNat < 0x20 then .error (.malformed .controlCharacter)
    else (skipString rest).map (·.grow (Nat.le_succ _))

/-! ## Names of members -/

/-- Reads the quoted name of a member. A brace in its place closes the object behind a comma. -/
def readKey (s : List Char) : Except ReadError (Taken String s) :=
  match next? s with
  | none => .error (.truncated .value)
  | some t =>
    if t.value = '"' then (readString t.rest).map t.append
    else if t.value = '\x7d' then .error (.malformed .commaBeforeEnd)
    else .error (.malformed .unquotedName)

/-- Reads the colon behind the name of a member. -/
def readColon (s : List Char) : Except ReadError (Taken Unit s) :=
  match next? s with
  | none => .error (.truncated .object)
  | some t => if t.value = ':' then .ok (t.map fun _ => ()) else .error (.malformed .noColon)

/-- Reads the quoted name of a member and the colon behind it. -/
def readName (s : List Char) : Except ReadError (Taken String s) := do
  let key ← readKey s
  let colon ← readColon key.rest
  .ok ((key.append colon).map fun _ => key.value)

/-! ## Numbers -/

/-- The parts of a written number. -/
structure NumberText where
  negative : Bool
  whole : List Char
  places : List Char
  /-- Sign and digits of the exponent. -/
  exponent : Option (Bool × List Char)
  /-- Whether there is neither a point nor an exponent. -/
  plain : Bool

def isDigit (c : Char) : Bool := '0' ≤ c && c ≤ '9'

def digitValue (c : Char) : Nat := c.toNat - '0'.toNat

/-- Whether a number can start with this character. -/
def startsNumber (c : Char) : Bool := c = '-' || isDigit c

/-- Reads at least one digit. -/
def readDigits : Reader (List Char)
  | [] => .error (.truncated .value)
  | c :: rest =>
    if isDigit c then
      .ok ⟨c :: rest.takeWhile isDigit, rest.dropWhile isDigit, Nat.lt_succ_of_le (length_dropWhile_le _ _)⟩
    else .error (.malformed .badNumber)

/-- Reads sign and digits of an exponent, the letter of which has been read. -/
def readExponent : Reader (Bool × List Char)
  | '-' :: rest => (readDigits rest).map fun t => (t.map fun ds => (true, ds)).grow (Nat.le_succ _)
  | '+' :: rest => (readDigits rest).map fun t => (t.map fun ds => (false, ds)).grow (Nat.le_succ _)
  | s => (readDigits s).map fun t => t.map fun ds => (false, ds)

/-- Reads the whole part of a number: no zero stands in front of another digit. -/
def readWhole : Reader (List Char)
  | '0' :: c :: rest => if isDigit c then .error (.malformed .badNumber) else .ok ⟨['0'], c :: rest, by simp⟩
  | ['0'] => .ok ⟨['0'], [], by simp⟩
  | s => readDigits s

/-- Reads the exponent of a number, if it has one. -/
def readExponentPart {τ : Type} {s : List Char} (number : NumberText) (t : Taken τ s) :
    Except ReadError (Taken NumberText s) :=
  match char? t.rest with
  | none => .ok (t.map fun _ => number)
  | some u =>
    if u.value = 'e' ∨ u.value = 'E' then
      (readExponent u.rest).map fun e =>
        (t.append (u.append e)).map fun written => { number with exponent := some written, plain := false }
    else .ok (t.map fun _ => number)

/-- Reads a number whose sign has been read. -/
def readNumberText (negative : Bool) (s : List Char) : Except ReadError (Taken NumberText s) := do
  let whole ← readWhole s
  match char? whole.rest with
  | none => .ok (whole.map fun ds => ⟨negative, ds, [], none, true⟩)
  | some point =>
    if point.value = '.' then
      let places ← readDigits point.rest
      readExponentPart ⟨negative, whole.value, places.value, none, false⟩ (whole.append (point.append places))
    else readExponentPart ⟨negative, whole.value, [], none, true⟩ whole

/-- The largest significand that is kept exactly. -/
def maxSignificand : Nat := 18446744073709551615

/-- Digits as a significand below `2 ^ 64` and the number of digits left over from the first one that does not
fit. -/
def significandOf (start : Nat) : List Char → Nat × Nat
  | [] => (start, 0)
  | c :: rest =>
    let next := start * 10 + digitValue c
    if maxSignificand < next then (start, rest.length + 1) else significandOf next rest

/-- The float `significand * 10 ^ exponent`, scaled in steps of at most `10 ^ 308`, each rounded. Nothing if it is
too large; `steps` bounds the number of steps down. -/
def scaleByTen (steps : Nat) (x : Float) (exponent : Int) : Option Float :=
  if exponent.natAbs ≤ 308 then
    let power := Float.ofScientific 1 false exponent.natAbs
    if 0 ≤ exponent then
      let y := x * power
      if y.isInf then none else some y
    else some (x / power)
  else if x == 0.0 then some x
  else if 0 ≤ exponent then none
  else
    match steps with
    | 0 => some 0.0
    | steps + 1 => scaleByTen steps (x / Float.ofScientific 1 false 308) (exponent + 308)

def digitsValue (digits : List Char) : Nat := digits.foldl (fun n c => n * 10 + digitValue c) 0

/-- The largest magnitude of an exponent that is counted. -/
def maxExponent : Nat := 2147483647

/-- The largest magnitude of a negative number that is kept as a whole number. -/
def maxNegative : Nat := 9223372036854775808

/-- The value of a written number, unless it is too large for a binary64 float. -/
def NumberText.value (t : NumberText) : Except ReadError Number := do
  let (whole, left) := significandOf 0 t.whole
  let signed (x : Float) : Number := .real (if t.negative then -x else x)
  if t.plain ∧ left = 0 then
    if t.negative then
      if whole = 0 ∨ maxNegative < whole then pure (.real (-whole.toFloat)) else pure (.negative (whole - 1))
    else pure (.natural whole)
  else
    let (significand, skipped) := significandOf whole t.places
    let exponent : Int := left - (t.places.length - skipped)
    match t.exponent with
    | some (down, digits) =>
      if maxExponent < digitsValue digits then
        if significand ≠ 0 ∧ !down then throw (.malformed .numberTooLarge) else pure (signed 0.0)
      else
        let written : Int := digitsValue digits
        let exponent := if down then exponent - written else exponent + written
        match scaleByTen 8 significand.toFloat exponent with
        | some x => pure (signed x)
        | none => throw (.malformed .numberTooLarge)
    | none =>
      match scaleByTen 8 significand.toFloat exponent with
      | some x => pure (signed x)
      | none => throw (.malformed .numberTooLarge)

/-- Reads the text of a number with its sign. -/
def readSignedText (s : List Char) : Except ReadError (Taken NumberText s) :=
  match next? s with
  | none => .error (.truncated .value)
  | some t =>
    if t.value = '-' then (readNumberText true t.rest).map t.append
    else (readNumberText false (trim s)).map fun u => u.grow (length_trim_le s)

def readNumber (s : List Char) : Except ReadError (Taken Number s) := do
  let text ← readSignedText s
  let value ← text.value.value
  .ok (text.map fun _ => value)

/-- Passes over a number. Its range does not matter, and one that is cut off counts as malformed. -/
def skipNumber (s : List Char) : Except ReadError (Taken Unit s) :=
  match readSignedText s with
  | .ok t => .ok (t.map fun _ => ())
  | .error _ => .error (.malformed .badNumber)

end CallAtlas.Json
