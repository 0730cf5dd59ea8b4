/-!
How well a pattern fits a text that contains its characters in order.

Runs of matching characters and matches at the start of a word count more, gaps cost. Letters of ASCII match
whatever their case; a match in the same case counts a little more.
-/

namespace CallAtlas.Fuzzy

set_option autoImplicit false

def sameIgnoringCase (a b : Char) : Bool := a.toLower = b.toLower

/-- The leftmost place of each character of the pattern behind the place of the one before, counted from `start`. -/
def firstPlaces (start : Nat) : List Char → List Char → Option (List Nat)
  | [], _ => some []
  | _ :: _, [] => none
  | p :: pattern, c :: text =>
    if sameIgnoringCase c p then (firstPlaces (start + 1) pattern text).map (start :: ·)
    else firstPlaces (start + 1) (p :: pattern) text

/-! ## Bonuses -/

inductive CharKind where
  | boundary
  | hardSeparator
  | softSeparator
  | upper
  | lower
  | number
deriving DecidableEq

def CharKind.of (c : Char) : CharKind :=
  if c = Char.ofNat 0 then .boundary
  else if [' ', '/', '\\', '|', '(', ')', '[', ']', '\x7b', '\x7d'].contains c then .hardSeparator
  else if ('!' ≤ c && c ≤ '\x27') || ('*' ≤ c && c ≤ '.') || (':' ≤ c && c ≤ '@') || ('^' ≤ c && c ≤ '\x60') ||
      c = '~' then .softSeparator
  else if '0' ≤ c && c ≤ '9' then .number
  else if 'A' ≤ c && c ≤ 'Z' then .upper
  else .lower

/-- The bonus for a match of a character, by the character before it. -/
def bonusAfter (previous current : Char) : Int :=
  match CharKind.of previous, CharKind.of current with
  | .boundary, _ => 8
  | .hardSeparator, _ => 8
  | .softSeparator, _ => 7
  | .lower, .upper => 6
  | .number, .upper => 6
  | _, _ => 0

/-- The bonuses of the characters of a text behind `previous`. -/
def bonusesAfter (previous : Char) : List Char → List Int
  | [] => []
  | c :: rest => bonusAfter previous c :: bonusesAfter c rest

/-- The bonuses of all characters of a text, that of the first one doubled. -/
def bonuses (text : List Char) : List Int :=
  match bonusesAfter (Char.ofNat 0) text with
  | [] => []
  | first :: rest => first * 2 :: rest

/-! ## Scores -/

/-- Stands for no match. -/
def noScore : Int := -32768

/-- The scores of one character of the pattern: columns for matches that end there, for gaps that end there, and for
the bonus of the run of matches there. -/
structure Row where
  matched : Array Int
  skipped : Array Int
  run : Array Int

/-- One column of a row, for character `c` at place `j` of the text with its bonus, under the row of the character
of the pattern before. -/
def Row.step (above : Row) (p : Char) (row : Row) (entry : Nat × Char × Int) : Row :=
  let (j, c, bonus) := entry
  let row :=
    if sameIgnoringCase c p then
      let run := max (row.run.getD j 0) (max bonus 4)
      let score := max (above.matched.getD j noScore + run) (above.skipped.getD j noScore + bonus)
      { row with
        run := row.run.setIfInBounds j run
        matched := row.matched.setIfInBounds (j + 1) (score + (if c = p then 16 else 14)) }
    else
      { row with
        run := row.run.setIfInBounds (j + 1) 0
        matched := row.matched.setIfInBounds (j + 1) noScore }
  let skipped : Int := max (row.matched.getD j noScore - 4) (row.skipped.getD j noScore - 1)
  { row with skipped := row.skipped.setIfInBounds (j + 1) skipped }

/-- Goes through the pattern with two rows that take turns; the second of the pair is written next. -/
def fill (entries : List (Nat × Char × Int)) : List (Char × Nat) → Row × Row → Row × Row
  | [], rows => rows
  | (p, start) :: pattern, (above, row) =>
    fill entries pattern ((entries.drop start).foldl (above.step p) row, above)

/-- The score of a pattern on a text; none if the text does not contain its characters in order. -/
def score? (text pattern : List Char) : Option Int := do
  let places ← firstPlaces 0 pattern text
  let width := text.length + 1
  let entries := (text.zip (bonuses text)).zipIdx.map fun ((c, bonus), j) => (j, c, bonus)
  let row (gap : Int) : Row := ⟨Array.replicate width noScore, Array.replicate width gap, Array.replicate width 0⟩
  let (last, _) := fill entries (pattern.zip places) (row (-1), row noScore)
  (last.matched.toList.drop (places.getLast?.getD 0)).max?

end CallAtlas.Fuzzy
