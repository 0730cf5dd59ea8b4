import CallAtlas.Payload.Details

/-!
A graph as a payload describes it: nodes with an id and free fields, and links by the ids of their ends.

Of the free fields of a node, numbers become metrics, and a few fields with fixed names become its details. An
analysis field that does not have the form it should have is left out.
-/

namespace CallAtlas

set_option autoImplicit false

open Json

structure NodeSpec where
  id : String
  depth : Option Float
  /-- The other fields. -/
  fields : Table Json

structure LinkSpec where
  source : String
  target : String
deriving DecidableEq

structure GraphSpec where
  nodes : List NodeSpec
  links : List LinkSpec

namespace NodeSpec

def ofId (id : String) : NodeSpec := ⟨id, none, []⟩

def withField (spec : NodeSpec) (name : String) (value : Json) : NodeSpec :=
  { spec with fields := spec.fields.enter name value }

/-- Adds a metric. A value that is not finite leaves the field without a number. -/
def withMetric (spec : NodeSpec) (name : String) (value : Float) : NodeSpec :=
  spec.withField name (if value.isFinite then .number (.real value) else .null)

def withDepth (spec : NodeSpec) (depth : Nat) : NodeSpec := { spec with depth := some depth.toFloat }

def withDetail (spec : NodeSpec) (name text : String) : NodeSpec := spec.withField name (.string text)

/-! ## Reading the fields -/

def metrics (spec : NodeSpec) : Table Float :=
  spec.fields.filterMap fun (name, value) => value.float?.map fun x => (name, x)

/-- The deepest ring that a payload may ask for. -/
def maxRing : Nat := 1024

/-- The natural number nearest to a float that is at least 0 and below `2 ^ 53`; a half goes up. -/
def nearestNat (x : Float) : Nat :=
  let whole := x.toUInt64
  if 0.5 ≤ x - whole.toFloat then whole.toNat + 1 else whole.toNat

/-- The supplied depth as the number of a ring. A depth that is negative or not finite is none. -/
def ring (spec : NodeSpec) : Option Nat :=
  match spec.depth with
  | some depth =>
    if depth.isFinite && 0.0 ≤ depth then
      some (if 1024.0 ≤ depth then maxRing else min (nearestNat depth) maxRing)
    else none
  | none => none

def text (spec : NodeSpec) (name : String) : Option String := (spec.fields.lookup name).bind string?

/-- An analysis field that is there, is not null and has the given form. -/
def analysis {τ : Type} (spec : NodeSpec) (name : String) (decode : Json → Option τ) : Option τ :=
  match spec.fields.lookup name with
  | some value => if value.isNull then none else decode value
  | none => none

/-- What the fields tell beside metrics, if anything. -/
def details (spec : NodeSpec) : Option NodeDetails :=
  let found : NodeDetails :=
    { id := spec.id
      file := spec.text "file"
      breadcrumbs := spec.text "breadcrumbs"
      code := spec.text "code"
      codeSmells := (spec.analysis "code_smells" (list? Finding.decode?)).getD []
      securityIssues := (spec.analysis "security_issues" (list? Finding.decode?)).getD []
      documentation := spec.analysis "documentation" Documentation.decode? }
  if found = NodeDetails.empty spec.id then none else some found

/-! ## Decoding -/

/-- A node is an object with one id and at most one depth; what else it holds is kept. -/
def decode? : Json → Option NodeSpec
  | .object members => do
    if repeats "id" members || repeats "depth" members then none
    let id ← (← Table.lookup "id" members).string?
    let depth ← orElse none (optional? float?) (Table.lookup "depth" members)
    let others := members.filter fun member => member.1 ≠ "id" ∧ member.1 ≠ "depth"
    pure ⟨id, depth, Table.ofList (normalizeMembers others)⟩
  | _ => none

end NodeSpec

def LinkSpec.decode? (value : Json) : Option LinkSpec := do
  match ← fields? ["source", "target"] value with
  | [some source, some target] =>
    let source ← source.string?
    let target ← target.string?
    pure ⟨source, target⟩
  | _ => none

def GraphSpec.decode? (value : Json) : Option GraphSpec := do
  match ← fields? ["nodes", "links"] value with
  | [some nodes, links] =>
    let nodes ← list? NodeSpec.decode? nodes
    let links ← orElse [] (list? LinkSpec.decode?) links
    pure ⟨nodes, links⟩
  | _ => none

end CallAtlas
