import CallAtlas.Json.Reader
import CallAtlas.Payload.Spec

/-!
A call graph as an analysis writes it: a map from the names of functions to what is known about each, its calls
included. A payload is a graph of nodes and links or such a map, and is tried as the former first.
-/

namespace CallAtlas

set_option autoImplicit false

open Json

structure Complexity where
  cyclomatic : Option Float
  linesOfCode : Option Float

def Complexity.decode? (value : Json) : Option Complexity := do
  match ← fields? ["cyclomatic_complexity", "loc"] value with
  | [cyclomatic, linesOfCode] =>
    let cyclomatic ← orElse none (optional? float?) cyclomatic
    let linesOfCode ← orElse none (optional? float?) linesOfCode
    pure ⟨cyclomatic, linesOfCode⟩
  | _ => none

structure FunctionRecord where
  code : Option String
  calls : List String
  complexity : Complexity
  file : Option String
  breadcrumbs : Option String
  codeSmells : Json
  securityIssues : Json
  documentation : Json

def FunctionRecord.decode? (value : Json) : Option FunctionRecord := do
  match ← fields? ["code", "calls", "complexity", "file", "breadcrumbs", "code_smells", "security_issues",
      "documentation"] value with
  | [code, calls, complexity, file, breadcrumbs, codeSmells, securityIssues, documentation] =>
    let text := orElse none (optional? string?)
    let any (field : Option Json) : Json := (field.getD .null).normalize
    let code ← text code
    let calls ← orElse [] (list? string?) calls
    let complexity ← orElse ⟨none, none⟩ Complexity.decode? complexity
    let file ← text file
    let breadcrumbs ← text breadcrumbs
    pure ⟨code, calls, complexity, file, breadcrumbs, any codeSmells, any securityIssues, any documentation⟩
  | _ => none

/-- Functions by name, in increasing order of the names. -/
abbrev CallMap : Type := Table FunctionRecord

/-- A map whose values are all function records; of a repeated name the last record counts. -/
def CallMap.decode? : Json → Option CallMap
  | .object members => do
    let entries ← members.mapM fun (name, value) => (FunctionRecord.decode? value).map fun record => (name, record)
    pure (Table.ofList entries)
  | _ => none

/-- The node of a function. -/
def FunctionRecord.toNode (name : String) (record : FunctionRecord) : NodeSpec :=
  let detail (key : String) (text : Option String) (spec : NodeSpec) : NodeSpec :=
    match text with
    | some text => spec.withDetail key text
    | none => spec
  let field (key : String) (value : Json) (spec : NodeSpec) : NodeSpec :=
    if value.isNull then spec else spec.withField key value
  let measured := (NodeSpec.ofId name).withMetric "complexity" (record.complexity.cyclomatic.getD 0.0)
  let measured :=
    match record.complexity.linesOfCode with
    | some lines => measured.withMetric "loc" lines
    | none => measured
  measured
    |> detail "file" record.file
    |> detail "breadcrumbs" record.breadcrumbs
    |> detail "code" record.code
    |> field "code_smells" record.codeSmells
    |> field "security_issues" record.securityIssues
    |> field "documentation" record.documentation

/-- The graph of a call map: a node for every function and a link for every call. -/
def CallMap.toGraph (map : CallMap) : GraphSpec where
  nodes := map.map fun (name, record) => record.toNode name
  links := map.flatMap fun (name, record) => record.calls.map fun callee => ⟨name, callee⟩

/-! ## Payloads as text -/

/-- The graph that a value describes in one of the two ways. -/
def GraphSpec.ofJson? (value : Json) : Option GraphSpec :=
  match GraphSpec.decode? value with
  | some graph => some graph
  | none => (CallMap.decode? value).map CallMap.toGraph

/-- The graph that a text describes. A value of neither form is reported before anything that follows it. -/
def GraphSpec.parse (text : String) : Except Json.ReadError GraphSpec := do
  let taken ← Json.readValue Json.maxDepth text.toList
  match GraphSpec.ofJson? taken.value with
  | some graph =>
    Json.readEnd taken.rest
    pure graph
  | none => throw (.mismatch .noPayload)

end CallAtlas
