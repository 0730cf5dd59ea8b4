import CallAtlas.Graph.CallGraph
import CallAtlas.Search.Fuzzy
import CallAtlas.Text.Characters

/-!
Searching nodes by id: a query matches every id that contains it, upper and lower case taken as the same.
-/

namespace CallAtlas

set_option autoImplicit false

/-- A query and the ids that match it. -/
structure Search where
  query : String
  matched : List String

namespace Search

def none : Search := ⟨"", []⟩

def isActive (s : Search) : Bool := s.query ≠ ""

def isMatch (s : Search) (id : String) : Bool := s.matched.contains id

/-- Whether `needle` is a part of a list of characters. -/
def contains (needle : List Char) : List Char → Bool
  | [] => needle.isEmpty
  | c :: rest => needle.isPrefixOf (c :: rest) || contains needle rest

/-- Whether an id contains a query, both in lower case. -/
def matchesQuery (query id : String) : Bool := contains (Text.lowercase query) (Text.lowercase id)

/-- The ids of a graph that match a query; the empty query matches none. -/
def matchesIn (g : CallGraph) (query : String) : List String :=
  if query = "" then [] else g.ids.filter (matchesQuery query)

/-- The same query on another graph. -/
def refresh (g : CallGraph) (s : Search) : Search := ⟨s.query, matchesIn g s.query⟩

/-- A new query. A blank one is no query. -/
def start (g : CallGraph) (query : String) : Search :=
  let kept := if Text.isBlankText query then "" else query
  ⟨kept, matchesIn g kept⟩

/-! ## Ranking -/

/-- By score, the highest first, and by id where scores are equal. -/
def rankedBefore (score : String → Int) (a b : String) : Bool :=
  decide (score b < score a) || (score a = score b && !decide (b < a))

/-- The first `limit` matches in the order of a score. -/
def rankedBy (score : String → Int) (s : Search) (limit : Nat) : List String :=
  (s.matched.mergeSort (rankedBefore score)).take limit

/-- How well an id fits the query. -/
def fit (s : Search) (id : String) : Int := (Fuzzy.score? id.toList s.query.toList).getD 0

def ranked (s : Search) (limit : Nat) : List String := s.rankedBy s.fit limit

end Search

end CallAtlas
