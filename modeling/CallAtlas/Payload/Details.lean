import CallAtlas.Json.Decode

/-!
What is known about a function beside its place in the graph: where it stands, its source, its documentation and
what analyses have found in it.
-/

namespace CallAtlas

set_option autoImplicit false

open Json

/-- A note of an analysis. -/
structure Finding where
  kind : Option String
  name : Option String
  severity : Option String
  line : Option Nat
  description : Option String
deriving DecidableEq

/-- A finding in one line. -/
def Finding.summary (f : Finding) : String :=
  (f.severity.map fun s => "[" ++ s ++ "] ").getD "" ++
    f.kind.getD "finding" ++
    (f.name.map fun n => " `" ++ n ++ "`").getD "" ++
    (f.line.map fun l => " (line " ++ toString l ++ ")").getD "" ++
    (f.description.map fun d => ": " ++ d).getD ""

def Finding.decode? (value : Json) : Option Finding := do
  match ← fields? ["type", "name", "severity", "line", "description"] value with
  | [kind, name, severity, line, description] =>
    let text := orElse none (optional? string?)
    let kind ← text kind
    let name ← text name
    let severity ← text severity
    let line ← orElse none (optional? nat?) line
    let description ← text description
    pure ⟨kind, name, severity, line, description⟩
  | _ => none

structure Documentation where
  docstring : Option String
  parameters : List String
  returnType : Option String
  line : Option Nat
deriving DecidableEq

def Documentation.decode? (value : Json) : Option Documentation := do
  match ← fields? ["docstring", "parameters", "return_type", "line"] value with
  | [docstring, parameters, returnType, line] =>
    let docstring ← orElse none (optional? string?) docstring
    let parameters ← orElse [] (list? string?) parameters
    let returnType ← orElse none (optional? string?) returnType
    let line ← orElse none (optional? nat?) line
    pure ⟨docstring, parameters, returnType, line⟩
  | _ => none

/-- The details of one node. -/
structure NodeDetails where
  id : String
  file : Option String
  breadcrumbs : Option String
  code : Option String
  codeSmells : List Finding
  securityIssues : List Finding
  documentation : Option Documentation
deriving DecidableEq

/-- Details that say nothing but the id. -/
def NodeDetails.empty (id : String) : NodeDetails := ⟨id, none, none, none, [], [], none⟩

end CallAtlas
