import CallAtlas.Text.CasedTable
import CallAtlas.Text.LowercaseTable
import CallAtlas.Text.UnprintedTable

/-!
The characters of a text: which are blank, what each is in lower case, and how each is shown between quotes.

In lower case every character maps on its own, with two exceptions: the dotted capital I becomes two characters, and a
capital sigma becomes the final small sigma at the end of a word. A sigma ends a word if a cased letter comes before it
and none after it, case-ignorable characters in between not counted.
-/

namespace CallAtlas.Text

set_option autoImplicit false

/-! ## Blank characters -/

/-- The white space of the Unicode standard. -/
def isBlank (c : Char) : Bool :=
  let n := c.toNat
  (0x9 ≤ n && n ≤ 0xd) || n = 0x20 || n = 0x85 || n = 0xa0 || n = 0x1680 || (0x2000 ≤ n && n ≤ 0x200a) ||
    n = 0x2028 || n = 0x2029 || n = 0x202f || n = 0x205f || n = 0x3000

/-- A text of blank characters only, or of none. -/
def isBlankText (text : String) : Bool := text.toList.all isBlank

/-! ## Lower case -/

def inRanges (ranges : Array (Nat × Nat)) (n : Nat) : Bool :=
  ranges.any fun range => range.1 ≤ n && n ≤ range.2

def isCased (c : Char) : Bool := inRanges casedRanges c.toNat

def isCaseIgnorable (c : Char) : Bool := inRanges caseIgnorableRanges c.toNat

def CaseRun.covers (run : CaseRun) (n : Nat) : Bool :=
  run.first ≤ n && n ≤ run.last && (n - run.first) % run.step = 0

/-- Lower case of one character, whatever stands around it. -/
def lowercaseChar (c : Char) : List Char :=
  if c.toNat < 128 then [c.toLower]
  else if c.toNat = 0x130 then ['i', Char.ofNat 0x307]
  else
    match caseRuns.find? (·.covers c.toNat) with
    | some run => [Char.ofNat (run.image + (c.toNat - run.first))]
    | none => [c]

/-- Whether the first character that is not case-ignorable is cased. -/
def startsCased (cs : List Char) : Bool := ((cs.dropWhile isCaseIgnorable).head?.map isCased).getD false

/-- Lower case of `cs`, where `before` stands in front of it in reverse order. -/
def lowercaseFrom (before : List Char) : List Char → List Char
  | [] => []
  | c :: rest =>
    let image :=
      if c = 'Σ' then [if startsCased before && !startsCased rest then 'ς' else 'σ'] else lowercaseChar c
    image ++ lowercaseFrom (c :: before) rest

def lowercase (text : String) : List Char := lowercaseFrom [] text.toList

/-! ## Quoted text -/

def hexDigits (n : Nat) : List Char := Nat.toDigits 16 n

/-- Quotes, backslashes and characters that do not show on their own are escaped. -/
def escapeChar (c : Char) : List Char :=
  if c = Char.ofNat 0 then ['\\', '0']
  else if c = '\t' then ['\\', 't']
  else if c = '\r' then ['\\', 'r']
  else if c = '\n' then ['\\', 'n']
  else if c = '"' then ['\\', '"']
  else if c = '\\' then ['\\', '\\']
  else if inRanges unprintedRanges c.toNat then
    ['\\', 'u', '\x7b'] ++ hexDigits c.toNat ++ ['\x7d']
  else [c]

/-- Text between double quotes, as messages show it. -/
def quoted (text : String) : String :=
  String.ofList (['"'] ++ text.toList.flatMap escapeChar ++ ['"'])

end CallAtlas.Text
