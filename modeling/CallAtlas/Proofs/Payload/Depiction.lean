import CallAtlas.Proofs.Graph.Adjacency
import CallAtlas.Proofs.Json.Finite
import CallAtlas.Proofs.Payload.Detection
import CallAtlas.Proofs.Payload.Fields
import CallAtlas.Proofs.Text.Bytes

/-! What becomes of a call map: a graph with a node for every function, linked to the functions it calls.

The node of a function is made by entering a list of named values into its fields. No name is entered twice, so each
value is found again under its name, as a metric or as a detail. -/

namespace CallAtlas

set_option autoImplicit false

open Json
open Table (lookup)

/-! ## Nodes of functions -/

def Complexity.Finite (complexity : Complexity) : Prop :=
  (∀ x ∈ complexity.cyclomatic, x.isFinite = true) ∧ ∀ x ∈ complexity.linesOfCode, x.isFinite = true

theorem Complexity.Finite.isFinite_getD {complexity : Complexity} (h : complexity.Finite) :
    (complexity.cyclomatic.getD 0.0).isFinite = true := by
  cases hvalue : complexity.cyclomatic with
  | none => decide
  | some x => exact h.1 x hvalue

namespace FunctionRecord

/-- What is entered into the node of a function. -/
def entries (record : FunctionRecord) : List (String × Option Json) :=
  let measured (x : Float) : Json := if x.isFinite then .number (.real x) else .null
  let present (value : Json) : Option Json := if value.isNull then none else some value
  [("complexity", some (measured (record.complexity.cyclomatic.getD 0.0))),
    ("loc", record.complexity.linesOfCode.map measured),
    ("file", record.file.map .string),
    ("breadcrumbs", record.breadcrumbs.map .string),
    ("code", record.code.map .string),
    ("code_smells", present record.codeSmells),
    ("security_issues", present record.securityIssues),
    ("documentation", present record.documentation)]

theorem toNode_eq (record : FunctionRecord) (name : String) :
    record.toNode name = record.entries.foldl NodeSpec.enter (NodeSpec.ofId name) := by
  have hfield : ∀ (key : String) (value : Json) (spec : NodeSpec),
      (if value.isNull then spec else spec.withField key value) =
        spec.enter (key, if value.isNull then none else some value) := by
    intro key value spec
    split <;> rfl
  obtain ⟨code, calls, ⟨cyclomatic, linesOfCode⟩, file, breadcrumbs, codeSmells, securityIssues, documentation⟩ := record
  simp only [toNode, hfield]
  cases linesOfCode <;> cases file <;> cases breadcrumbs <;> cases code <;> rfl

theorem entries_distinct (record : FunctionRecord) : (record.entries.map (·.1)).Nodup := by
  change ["complexity", "loc", "file", "breadcrumbs", "code", "code_smells", "security_issues", "documentation"].Nodup
  decide

theorem toNode_increasing (record : FunctionRecord) (name : String) : Increasing (record.toNode name).fields := by
  rw [toNode_eq]
  exact NodeSpec.foldl_enter_increasing _ List.Pairwise.nil

theorem lookup_toNode {record : FunctionRecord} {key : String} {value : Option Json} (h : (key, value) ∈ record.entries)
    (name : String) : lookup key (record.toNode name).fields = value := by
  rw [toNode_eq, NodeSpec.lookup_foldl_enter record.entries_distinct h]
  exact Option.or_none

theorem text_toNode {record : FunctionRecord} {key : String} {text : Option String}
    (h : (key, text.map Json.string) ∈ record.entries) (name : String) : (record.toNode name).text key = text := by
  rw [NodeSpec.text, lookup_toNode h]
  cases text <;> rfl

theorem details_toNode (record : FunctionRecord) (name : String) :
    (record.toNode name).details.bind (·.file) = record.file ∧
      (record.toNode name).details.bind (·.breadcrumbs) = record.breadcrumbs ∧
      (record.toNode name).details.bind (·.code) = record.code := by
  obtain ⟨hfile, hbreadcrumbs, hcode⟩ := (record.toNode name).bind_details
  rw [hfile, hbreadcrumbs, hcode]
  refine ⟨text_toNode ?_ name, text_toNode ?_ name, text_toNode ?_ name⟩ <;> simp [entries]

section

variable {record : FunctionRecord} (h : record.complexity.Finite) (name : String)
include h

theorem lookup_complexity :
    (lookup "complexity" (record.toNode name).fields).bind float? = some (record.complexity.cyclomatic.getD 0.0) := by
  have hentry : ("complexity", some (.number (.real (record.complexity.cyclomatic.getD 0.0)))) ∈ record.entries := by
    simp [entries, h.isFinite_getD]
  rw [lookup_toNode hentry]
  rfl

theorem lookup_linesOfCode :
    (lookup "loc" (record.toNode name).fields).bind float? = record.complexity.linesOfCode := by
  have hentry : ("loc", record.complexity.linesOfCode.map fun x => .number (.real x)) ∈ record.entries := by
    cases hvalue : record.complexity.linesOfCode with
    | none => simp [entries, hvalue]
    | some x => simp [entries, hvalue, h.2 x hvalue]
  rw [lookup_toNode hentry]
  cases record.complexity.linesOfCode <;> rfl

theorem metrics_toNode :
    (Vertex.ofSpec (record.toNode name)).metric "complexity" = record.complexity.cyclomatic.getD 0.0 ∧
      (Vertex.ofSpec (record.toNode name)).metric "loc" = record.complexity.linesOfCode.getD 0.0 ∧
      ("loc" ∈ (Vertex.ofSpec (record.toNode name)).metricNames ↔ record.complexity.linesOfCode.isSome) := by
  have hincreasing := record.toNode_increasing name
  refine ⟨?_, ?_, ?_⟩
  · have hmetric := NodeSpec.ofSpec_metric hincreasing (lookup_complexity h name)
    exact hmetric (by simp [h.isFinite_getD])
  · exact NodeSpec.ofSpec_metric hincreasing (lookup_linesOfCode h name) h.2
  · rw [NodeSpec.mem_ofSpec_metricNames hincreasing, lookup_linesOfCode h]

end

end FunctionRecord

/-! ## Call maps that are read -/

namespace CallMap

/-- Names in increasing order, and numbers that are finite. -/
structure WellFormed (map : CallMap) : Prop where
  increasing : Increasing map
  finite : ∀ entry ∈ map, entry.2.complexity.Finite

end CallMap

theorem Complexity.finite_of_decode? {value : Json} (h : value.Finite) {complexity : Complexity}
    (hdecode : Complexity.decode? value = some complexity) : complexity.Finite := by
  unfold Complexity.decode? at hdecode
  obtain ⟨fields, hfields, hdecode⟩ := Option.bind_eq_some_iff.mp hdecode
  match fields, length_of_fields? hfields with
  | [cyclomatic, linesOfCode], _ =>
    obtain ⟨first, hfirst, hdecode⟩ := Option.bind_eq_some_iff.mp hdecode
    obtain ⟨second, hsecond, hdecode⟩ := Option.bind_eq_some_iff.mp hdecode
    cases hdecode
    exact ⟨Json.Finite.float (fun item hitem => h.field hfields (by simp [hitem])) hfirst,
      Json.Finite.float (fun item hitem => h.field hfields (by simp [hitem])) hsecond⟩

theorem FunctionRecord.finite_of_decode? {value : Json} (h : value.Finite) {record : FunctionRecord}
    (hdecode : FunctionRecord.decode? value = some record) : record.complexity.Finite := by
  unfold FunctionRecord.decode? at hdecode
  obtain ⟨fields, hfields, hdecode⟩ := Option.bind_eq_some_iff.mp hdecode
  match fields, length_of_fields? hfields with
  | [code, calls, complexity, file, breadcrumbs, codeSmells, securityIssues, documentation], _ =>
    simp only [Option.bind_eq_bind, Option.bind_eq_some_iff] at hdecode
    obtain ⟨_, -, _, -, measured, hmeasured, _, -, _, -, hdecode⟩ := hdecode
    cases hdecode
    cases complexity with
    | none =>
      cases hmeasured
      simp [Complexity.Finite]
    | some item => exact Complexity.finite_of_decode? (h.field hfields (by simp)) hmeasured

namespace CallMap

theorem wellFormed_of_decode? {value : Json} (h : value.Finite) {map : CallMap} (hdecode : decode? value = some map) :
    map.WellFormed := by
  cases h with
  | object hmembers =>
    obtain ⟨entries, hentries, hdecode⟩ := Option.bind_eq_some_iff.mp hdecode
    cases hdecode
    refine ⟨Table.increasing_ofList entries, fun entry hentry => ?_⟩
    obtain ⟨member, hmember, hrecord⟩ := exists_of_mem_mapM hentries (Table.mem_of_mem_ofList hentry)
    obtain ⟨record, hdecode, rfl⟩ := Option.map_eq_some_iff.mp hrecord
    exact FunctionRecord.finite_of_decode? (hmembers member hmember) hdecode
  | null | bool | number | string | array => cases hdecode

end CallMap

/-! ## The graph of a call map -/

theorem eraseDups_of_nodup {names : List String} (h : names.Nodup) : names.eraseDups = names := by
  induction names with
  | nil => rfl
  | cons name rest ih =>
    obtain ⟨hname, hrest⟩ := List.nodup_cons.mp h
    have hfilter : rest.filter (fun other => !other == name) = rest := by
      rw [List.filter_eq_self]
      intro other hother
      have hne : other ≠ name := fun heq => hname (heq ▸ hother)
      simp [hne]
    rw [List.eraseDups_cons, hfilter, ih hrest]

/-- The graph shows the functions of the map and their calls. -/
structure CallGraph.Depicts (g : CallGraph) (map : CallMap) : Prop where
  /-- Each function is a node, in the order of the map. -/
  nodes : g.ids = map.map (·.1)
  order : g.ids.Pairwise fun a b => Text.bytes a < Text.bytes b
  /-- A link leads from a function to each function of the map that it calls. -/
  links : ∀ i j, ⟨i, j⟩ ∈ g.links ↔
    ∃ record, ((g.vertices.get i).id, record) ∈ map ∧ (g.vertices.get j).id ∈ record.calls
  once : g.links.Nodup
  metrics : ∀ name record, (name, record) ∈ map → ∃ v, g.vertex? name = some v ∧
    v.metric "complexity" = record.complexity.cyclomatic.getD 0.0 ∧
    v.metric "loc" = record.complexity.linesOfCode.getD 0.0 ∧
    ("loc" ∈ v.metricNames ↔ record.complexity.linesOfCode.isSome)
  details : ∀ name record, (name, record) ∈ map →
    (g.details name).bind (·.file) = record.file ∧ (g.details name).bind (·.breadcrumbs) = record.breadcrumbs ∧
      (g.details name).bind (·.code) = record.code

namespace CallMap

theorem toGraph_ids (map : CallMap) : map.toGraph.nodes.map (·.id) = map.map (·.1) := by
  unfold toGraph
  rw [List.map_map]
  exact List.map_congr_left fun entry _ => entry.2.toNode_id entry.1

theorem mem_toGraph_links {map : CallMap} {link : LinkSpec} :
    link ∈ map.toGraph.links ↔ ∃ record, (link.source, record) ∈ map ∧ link.target ∈ record.calls := by
  unfold toGraph
  rw [List.mem_flatMap]
  constructor
  · rintro ⟨⟨name, record⟩, hentry, hlink⟩
    obtain ⟨callee, hcallee, rfl⟩ := List.mem_map.mp hlink
    exact ⟨record, hentry, hcallee⟩
  · rintro ⟨record, hentry, hcall⟩
    exact ⟨(link.source, record), hentry, List.mem_map.mpr ⟨link.target, hcall, rfl⟩⟩

theorem find?_toGraph_nodes {map : CallMap} (h : Increasing map) {name : String} {record : FunctionRecord}
    (hmem : (name, record) ∈ map) : map.toGraph.nodes.find? (·.id = name) = some (record.toNode name) := by
  unfold toGraph
  rw [List.find?_map]
  have hfind : map.find? ((fun spec : NodeSpec => decide (spec.id = name)) ∘ fun entry => entry.2.toNode entry.1) =
      map.find? (·.1 = name) := by
    congr 1
    funext entry
    simp [FunctionRecord.toNode_id]
  rw [hfind, Table.find?_eq_some h hmem]
  rfl

theorem WellFormed.ids {map : CallMap} (h : map.WellFormed) :
    (CallGraph.ofSpec map.toGraph).ids = map.map (·.1) := by
  have hdistinct : (map.map (·.1)).Nodup := List.pairwise_map.mpr (h.increasing.imp ne_of_lt)
  rw [CallGraph.ofSpec_ids, toGraph_ids, eraseDups_of_nodup hdistinct]

theorem mem_ofSpec_toGraph_links (map : CallMap) (i j : Fin (CallGraph.ofSpec map.toGraph).size) :
    ⟨i, j⟩ ∈ (CallGraph.ofSpec map.toGraph).links ↔
      ∃ record, (((CallGraph.ofSpec map.toGraph).vertices.get i).id, record) ∈ map ∧
        ((CallGraph.ofSpec map.toGraph).vertices.get j).id ∈ record.calls := by
  rw [CallGraph.mem_ofSpec_links]
  constructor
  · rintro ⟨link, hlink, hsource, htarget⟩
    rw [← hsource, ← htarget]
    exact mem_toGraph_links.mp hlink
  · intro hcall
    exact ⟨⟨_, _⟩, mem_toGraph_links.mpr hcall, rfl, rfl⟩

theorem WellFormed.vertex? {map : CallMap} (h : map.WellFormed) {name : String} {record : FunctionRecord}
    (hmem : (name, record) ∈ map) :
    (CallGraph.ofSpec map.toGraph).vertex? name = some (Vertex.ofSpec (record.toNode name)) := by
  rw [CallGraph.ofSpec_vertex?, find?_toGraph_nodes h.increasing hmem]
  rfl

/-- The graph of a call map shows its functions and their calls, and every map that is read from a text has the form
that this takes. -/
theorem toGraph_depicts_map :
    (∀ map : CallMap, map.WellFormed → (CallGraph.ofSpec map.toGraph).Depicts map) ∧
    ∀ (text : String) (taken : Taken Json text.toList) (map : CallMap),
      readValue maxDepth text.toList = .ok taken → decode? taken.value = some map → map.WellFormed := by
  constructor
  · intro map h
    refine ⟨h.ids, ?_, mem_ofSpec_toGraph_links map, ?_, ?_, ?_⟩
    · rw [h.ids, List.pairwise_map]
      exact h.increasing.imp Text.bytes_lt_bytes_iff.mpr
    · refine (CallGraph.ofSpec_links_pairwise _).imp fun hprecedes heq => ?_
      exact Std.Irrefl.irrefl _ (heq ▸ hprecedes)
    · intro name record hmem
      exact ⟨_, h.vertex? hmem, FunctionRecord.metrics_toNode (h.finite _ hmem) name⟩
    · intro name record hmem
      rw [CallGraph.ofSpec_details, find?_toGraph_nodes h.increasing hmem]
      exact record.details_toNode name
  · intro text taken map hread hdecode
    have hfinite : taken.value.Finite := readValue_finite maxDepth text.toList taken hread
    exact wellFormed_of_decode? hfinite hdecode

/-- Two functions, one of which calls itself, the other one twice, and a name that is not there. -/
def twoFunctions : CallMap :=
  [("a", ⟨none, ["b", "a", "b", "print"], ⟨none, some 3.5⟩, some "a.py", none, .null, .null, .null⟩),
    ("b", ⟨some "pass", [], ⟨some 2.0, none⟩, none, none, .null, .null, .null⟩)]

theorem twoFunctions_wellFormed : twoFunctions.WellFormed := by
  constructor
  · exact List.pairwise_pair.mpr (by decide)
  · have hlines : (3.5 : Float).isFinite = true := by decide
    have hcyclomatic : (2.0 : Float).isFinite = true := by decide
    simp [twoFunctions, Complexity.Finite, hlines, hcyclomatic]

/-- One function that nothing is said about. -/
def oneFunction : String := "\x7b\"a\":\x7b\x7d\x7d"

theorem oneFunction_read : Gives (readValue maxDepth oneFunction.toList) (.object [("a", .object [])]) [] :=
  readValue_object (readObject_cons (readMembers_last ['a'] (by simp [IsPlain]) (readValue_object readObject_nil)))

theorem twoFunctions_depicted :
    (twoFunctions.WellFormed ∧ (CallGraph.ofSpec twoFunctions.toGraph).Depicts twoFunctions) ∧
    ∃ (taken : Taken Json oneFunction.toList) (map : CallMap), readValue maxDepth oneFunction.toList = .ok taken ∧
      decode? taken.value = some map ∧ map.map (·.1) = ["a"] ∧ map.WellFormed := by
  obtain ⟨shorter, hread⟩ := oneFunction_read
  refine ⟨⟨twoFunctions_wellFormed, toGraph_depicts_map.1 _ twoFunctions_wellFormed⟩, _, _, hread, rfl, rfl, ?_⟩
  exact toGraph_depicts_map.2 _ _ _ hread rfl

end CallMap

end CallAtlas
