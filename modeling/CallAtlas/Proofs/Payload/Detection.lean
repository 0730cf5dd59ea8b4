import CallAtlas.Payload.CallMap
import CallAtlas.Proofs.Json.Forms
import CallAtlas.Proofs.Json.Reading
import CallAtlas.Proofs.Table

/-!
Which of the two kinds of payload a text is taken for.

An object with a member `nodes` is meant as a graph of nodes and links. It is read as one whenever its members spell
one. If they do not, it is refused only if some member is no function record; otherwise it becomes a call map, with a
function named `nodes`.
-/

namespace CallAtlas

set_option autoImplicit false

open Json
open Table (lookup)

variable {members : List (String × Json)} {graph : GraphSpec}

/-! ## Graphs of nodes and links -/

namespace GraphSpec

/-- The members hold a list of nodes and at most one list of links, and these are the lists of the graph. -/
structure SpelledBy (members : List (String × Json)) (graph : GraphSpec) : Prop where
  nodes : Lists NodeSpec.decode? "nodes" members graph.nodes
  links : under "links" members = [] ∧ graph.links = [] ∨ Lists LinkSpec.decode? "links" members graph.links

theorem decode?_object_eq_some_iff :
    decode? (.object members) = some graph ↔
      ((under "nodes" members).length ≤ 1 ∧ (under "links" members).length ≤ 1) ∧
        (lookup "nodes" members).bind (list? NodeSpec.decode?) = some graph.nodes ∧
        orElse [] (list? LinkSpec.decode?) (lookup "links" members) = some graph.links := by
  obtain ⟨nodes, links⟩ := graph
  simp only [decode?, Option.bind_eq_bind, Option.bind_eq_some_iff, fields?_object_eq_some_iff, and_assoc,
    exists_and_left, exists_eq_left', List.forall_mem_cons, List.not_mem_nil, false_imp_iff, implies_true, true_and,
    List.map_cons, List.map_nil]
  cases lookup "nodes" members <;> simp [Option.bind_eq_some_iff]

theorem decode?_eq_some_iff :
    decode? (.object members) = some graph ↔ SpelledBy members graph := by
  rw [decode?_object_eq_some_iff]
  constructor
  · rintro ⟨⟨hnodesOne, hlinksOne⟩, hnodes, hlinks⟩
    exact ⟨(bind_list?_eq_some_iff hnodesOne).1 hnodes, (orElse_list?_eq_some_iff hlinksOne).1 hlinks⟩
  · rintro ⟨hnodes, hlinks⟩
    have hnodesOne : (under "nodes" members).length ≤ 1 := by
      obtain ⟨items, hnodes, -⟩ := hnodes
      simp [hnodes]
    have hlinksOne : (under "links" members).length ≤ 1 := by
      obtain ⟨hlinks, -⟩ | ⟨items, hlinks, -⟩ := hlinks <;> simp [hlinks]
    exact ⟨⟨hnodesOne, hlinksOne⟩, (bind_list?_eq_some_iff hnodesOne).2 hnodes,
      (orElse_list?_eq_some_iff hlinksOne).2 hlinks⟩

theorem not_spelledBy_of_object_links {fields : List (String × Json)}
    (h : ("links", .object fields) ∈ members) (graph : GraphSpec) : ¬ SpelledBy members graph := by
  rintro ⟨-, ⟨hnone, -⟩ | ⟨items, hsome, -⟩⟩
  · simp [← mem_under, hnone] at h
  · simp [← mem_under, hsome] at h

end GraphSpec

/-! ## Function records -/

/-- What the value of a function in a call map looks like. -/
def IsFunctionRecord : Json → Prop :=
  RecordOf [("code", NullOr IsText), ("calls", ListOf IsText),
    ("complexity", RecordOf [("cyclomatic_complexity", NullOr IsNumber), ("loc", NullOr IsNumber)]),
    ("file", NullOr IsText), ("breadcrumbs", NullOr IsText), ("code_smells", fun _ => True),
    ("security_issues", fun _ => True), ("documentation", fun _ => True)]

theorem Complexity.isSome_decode? (value : Json) :
    (Complexity.decode? value).isSome ↔
      RecordOf [("cyclomatic_complexity", NullOr IsNumber), ("loc", NullOr IsNumber)] value := by
  have hnumber := isSome_orElse (isSome_optional? isSome_float?) none
  rw [recordOf_iff, Complexity.decode?]
  cases hfields : fields? ["cyclomatic_complexity", "loc"] value with
  | none => simp [hfields]
  | some fields =>
    match fields, length_of_fields? hfields with
    | [cyclomatic, linesOfCode], _ =>
      simp only [List.map_cons, List.map_nil, hfields, Option.some.injEq, exists_eq_left', Option.bind_eq_bind,
        Option.bind_some, List.forall₂_cons, List.Forall₂.nil, ← hnumber]
      exact isSome_bind_iff fun _ => isSome_bind_iff fun _ => by simp

theorem FunctionRecord.isSome_decode? (value : Json) :
    (FunctionRecord.decode? value).isSome ↔ IsFunctionRecord value := by
  have htext := isSome_orElse (isSome_optional? isSome_string?) none
  have hcalls := isSome_orElse (isSome_list? isSome_string?) []
  have hcomplexity := isSome_orElse Complexity.isSome_decode? ⟨none, none⟩
  rw [IsFunctionRecord, recordOf_iff, FunctionRecord.decode?]
  cases hfields : fields? ["code", "calls", "complexity", "file", "breadcrumbs", "code_smells", "security_issues",
      "documentation"] value with
  | none => simp [hfields]
  | some fields =>
    match fields, length_of_fields? hfields with
    | [code, calls, complexity, file, breadcrumbs, codeSmells, securityIssues, documentation], _ =>
      simp only [List.map_cons, List.map_nil, hfields, Option.some.injEq, exists_eq_left', Option.bind_eq_bind,
        Option.bind_some, List.forall₂_cons, List.Forall₂.nil, ← htext, ← hcalls, ← hcomplexity]
      exact isSome_bind_iff fun _ => isSome_bind_iff fun _ => isSome_bind_iff fun _ => isSome_bind_iff fun _ =>
        isSome_bind_iff fun _ => by simp

/-- A list of nodes that are written as objects is no function record. -/
theorem not_isFunctionRecord_object_cons (fields : List (String × Json)) (items : List Json) :
    ¬ IsFunctionRecord (.array (.object fields :: items)) := by
  intro h
  have hcode := h.2 (.object fields, "code", NullOr IsText) (by simp)
  simp [NullOr, IsText] at hcode

/-! ## Call maps -/

theorem CallMap.names_of_decode? {map : CallMap} (h : CallMap.decode? (.object members) = some map) (name : String) :
    name ∈ map.map (·.1) ↔ name ∈ members.map (·.1) := by
  simp only [CallMap.decode?, Option.bind_eq_bind, Option.bind_eq_some_iff, Option.pure_def, Option.some.injEq] at h
  obtain ⟨entries, hentries, rfl⟩ := h
  have hnames : entries.map (·.1) = members.map (·.1) := by
    have hzip := mapM_eq_some_iff.1 hentries
    clear hentries
    induction hzip with
    | nil => rfl
    | cons hentry _ ih =>
      obtain ⟨record, -, rfl⟩ := Option.map_eq_some_iff.1 hentry
      simp [ih]
  rw [← hnames]
  exact Table.mem_names_ofList

theorem CallMap.isSome_decode? :
    (CallMap.decode? (.object members)).isSome ↔ ∀ member ∈ members, IsFunctionRecord member.2 := by
  have hentries := @isSome_mapM _ _ (fun member : String × Json =>
    (FunctionRecord.decode? member.2).map fun record => (member.1, record)) members
  simp only [Option.isSome_map, FunctionRecord.isSome_decode?] at hentries
  rw [← hentries, CallMap.decode?]
  exact (isSome_bind_iff (p := True) fun _ => by simp).trans (iff_of_eq (and_true _))

theorem FunctionRecord.toNode_id (record : FunctionRecord) (name : String) : (record.toNode name).id = name := by
  have hfield : ∀ (key : String) (value : Json) (spec : NodeSpec),
      (if value.isNull then spec else spec.withField key value).id = spec.id := by
    intro key value spec
    split <;> rfl
  simp only [FunctionRecord.toNode, hfield]
  cases record.code <;> cases record.breadcrumbs <;> cases record.file <;>
    cases record.complexity.linesOfCode <;> rfl

/-! ## Detection -/

namespace GraphSpec

theorem ofJson?_of_spelledBy (h : SpelledBy members graph) :
    ofJson? (.object members) = some graph := by
  rw [ofJson?, decode?_eq_some_iff.2 h]

section

variable (hspelled : ∀ graph, ¬ SpelledBy members graph)
include hspelled

theorem ofJson?_of_not_spelledBy :
    ofJson? (.object members) = (CallMap.decode? (.object members)).map CallMap.toGraph := by
  have hnone : decode? (.object members) = none :=
    Option.eq_none_iff_forall_ne_some.2 fun graph h => hspelled graph (decode?_eq_some_iff.1 h)
  rw [ofJson?, hnone]

theorem ofJson?_eq_none (hother : ∃ member ∈ members, ¬ IsFunctionRecord member.2) :
    ofJson? (.object members) = none := by
  rw [ofJson?_of_not_spelledBy hspelled, Option.map_eq_none_iff, ← Option.not_isSome_iff_eq_none,
    CallMap.isSome_decode?]
  simpa using hother

theorem ofJson?_of_functions (hrecords : ∀ member ∈ members, IsFunctionRecord member.2) :
    ∃ graph, ofJson? (.object members) = some graph ∧
      ∀ name, name ∈ graph.nodes.map (·.id) ↔ name ∈ members.map (·.1) := by
  obtain ⟨map, hmap⟩ := Option.isSome_iff_exists.1 (CallMap.isSome_decode?.2 hrecords)
  refine ⟨map.toGraph, by rw [ofJson?_of_not_spelledBy hspelled, hmap]; rfl, fun name => ?_⟩
  rw [← CallMap.names_of_decode? hmap]
  simp [CallMap.toGraph, FunctionRecord.toNode_id]

end

section

variable {text : String} {taken : Taken Json text.toList} (hread : readValue maxDepth text.toList = .ok taken)
include hread

theorem parse_of_some (h : ofJson? taken.value = some graph) :
    parse text = (readEnd taken.rest).map fun _ => graph := by
  simp only [parse, hread, bind, Except.bind, h]
  cases readEnd taken.rest <;> rfl

theorem parse_of_none (h : ofJson? taken.value = none) :
    parse text = .error (.mismatch .noPayload) := by
  simp only [parse, hread, bind, Except.bind, h]
  rfl

theorem parse_eq_ok_iff :
    parse text = .ok graph ↔ ofJson? taken.value = some graph ∧ readEnd taken.rest = .ok () := by
  cases h : ofJson? taken.value with
  | none => simp [parse_of_none hread h]
  | some other =>
    rw [parse_of_some hread h]
    cases readEnd taken.rest <;> simp [Except.map]

theorem parse_native_iff (hobject : taken.value = .object members) :
    (∀ graph, parse text = .ok graph → SpelledBy members graph) ↔
      (∃ graph, SpelledBy members graph) ∨ (∃ member ∈ members, ¬ IsFunctionRecord member.2) ∨
        readEnd taken.rest ≠ .ok () := by
  constructor
  · intro h
    by_contra hnot
    push Not at hnot
    obtain ⟨hspelled, hrecords, hend⟩ := hnot
    obtain ⟨graph, hgraph, -⟩ := ofJson?_of_functions hspelled hrecords
    exact hspelled graph (h graph ((parse_eq_ok_iff hread).2 ⟨hobject ▸ hgraph, hend⟩))
  · intro h graph hparse
    obtain ⟨hgraph, hend⟩ := (parse_eq_ok_iff hread).1 hparse
    rw [hobject] at hgraph
    have hspelled : ∃ other, SpelledBy members other := by
      obtain hspelled | hother | hrest := h
      · exact hspelled
      · by_contra hspelled
        rw [ofJson?_eq_none (not_exists.1 hspelled) hother] at hgraph
        cases hgraph
      · exact absurd hend hrest
    obtain ⟨other, hother⟩ := hspelled
    rw [ofJson?_of_spelledBy hother, Option.some.injEq] at hgraph
    exact hgraph ▸ hother

end

/-- An object with a member `nodes` is read as the graph that its members spell. If they spell none, it is refused if
a member is no function record; otherwise every member becomes a node, and so does `nodes`. So whatever is read is
spelled by the members unless all of these are function records, which a list that starts with an object is not. -/
theorem parse_with_nodes {text : String} {taken : Taken Json text.toList}
    (hread : readValue maxDepth text.toList = .ok taken) (hobject : taken.value = .object members)
    (hnodes : ∃ value, ("nodes", value) ∈ members) :
    (∀ graph, SpelledBy members graph → parse text = (readEnd taken.rest).map fun _ => graph) ∧
    ((∀ graph, ¬ SpelledBy members graph) →
      ((∃ member ∈ members, ¬ IsFunctionRecord member.2) → parse text = .error (.mismatch .noPayload)) ∧
      ((∀ member ∈ members, IsFunctionRecord member.2) →
        ∃ graph : GraphSpec, parse text = ((readEnd taken.rest).map fun _ => graph) ∧
          "nodes" ∈ graph.nodes.map (·.id) ∧
          ∀ name, name ∈ graph.nodes.map (·.id) ↔ name ∈ members.map (·.1))) ∧
    ((∀ graph, parse text = .ok graph → SpelledBy members graph) ↔
      (∃ graph, SpelledBy members graph) ∨ (∃ member ∈ members, ¬ IsFunctionRecord member.2) ∨
        readEnd taken.rest ≠ .ok ()) ∧
    (∀ fields items, ("nodes", .array (.object fields :: items)) ∈ members →
      ∀ graph, parse text = .ok graph → SpelledBy members graph) := by
  refine ⟨fun graph h => ?_, fun hspelled => ⟨fun hother => ?_, fun hrecords => ?_⟩,
    parse_native_iff hread hobject, fun fields items hmember => ?_⟩
  · exact parse_of_some hread (hobject ▸ ofJson?_of_spelledBy h)
  · exact parse_of_none hread (hobject ▸ ofJson?_eq_none hspelled hother)
  · obtain ⟨graph, hgraph, hnames⟩ := ofJson?_of_functions hspelled hrecords
    obtain ⟨value, hvalue⟩ := hnodes
    refine ⟨graph, parse_of_some hread (hobject ▸ hgraph), ?_, hnames⟩
    exact (hnames "nodes").2 (List.mem_map_of_mem hvalue)
  · have hother : ∃ member ∈ members, ¬ IsFunctionRecord member.2 :=
      ⟨_, hmember, not_isFunctionRecord_object_cons fields items⟩
    exact (parse_native_iff hread hobject).2 (.inr (.inl hother))

/-- One node, and links that are no list. -/
def oneNode : String := "\x7b\"nodes\":[\x7b\"id\":\"a\"\x7d],\"links\":\x7b\x7d\x7d"

theorem oneNode_read : Gives (readValue maxDepth oneNode.toList)
    (.object [("nodes", .array [.object [("id", .string "a")]]), ("links", .object [])]) [] :=
  readValue_object (readObject_cons (readMembers_cons ['n', 'o', 'd', 'e', 's'] (by simp [IsPlain])
    (readValue_array (readArray_cons rfl (by decide) (readItems_last (readValue_object (readObject_cons
      (readMembers_last ['i', 'd'] (by simp [IsPlain]) (readValue_string ['a'] _ (by simp [IsPlain]))))))))
    (readMembers_last ['l', 'i', 'n', 'k', 's'] (by simp [IsPlain]) (readValue_object readObject_nil))))

theorem parse_oneNode : ∃ (taken : Taken Json oneNode.toList) (members : List (String × Json)),
    readValue maxDepth oneNode.toList = .ok taken ∧ taken.value = .object members ∧
      (∃ value, ("nodes", value) ∈ members) ∧ parse oneNode = .error (.mismatch .noPayload) := by
  obtain ⟨shorter, hread⟩ := oneNode_read
  have hnodes : ∃ value, ("nodes", value) ∈ [("nodes", Json.array [.object [("id", .string "a")]]),
      ("links", .object [])] := ⟨_, List.mem_cons_self⟩
  have hspelled : ∀ graph, ¬ SpelledBy [("nodes", .array [.object [("id", .string "a")]]),
      ("links", .object [])] graph :=
    not_spelledBy_of_object_links (List.mem_cons_of_mem _ List.mem_cons_self)
  refine ⟨_, _, hread, rfl, hnodes, ?_⟩
  exact ((parse_with_nodes hread rfl hnodes).2.1 hspelled).1
    ⟨_, List.mem_cons_self, not_isFunctionRecord_object_cons _ _⟩

/-- No nodes, and links that are no list. -/
def noNodes : String := "\x7b\"nodes\":[],\"links\":\x7b\x7d\x7d"

theorem noNodes_read : Gives (readValue maxDepth noNodes.toList)
    (.object [("nodes", .array []), ("links", .object [])]) [] :=
  readValue_object (readObject_cons (readMembers_cons ['n', 'o', 'd', 'e', 's'] (by simp [IsPlain])
    (readValue_array readArray_nil)
    (readMembers_last ['l', 'i', 'n', 'k', 's'] (by simp [IsPlain]) (readValue_object readObject_nil))))

/-- A list without nodes passes for a function record, and so does an object in the place of the links. -/
theorem parse_noNodes : ∃ (taken : Taken Json noNodes.toList) (members : List (String × Json))
    (graph : GraphSpec), readValue maxDepth noNodes.toList = .ok taken ∧ taken.value = .object members ∧
      (∃ value, ("nodes", value) ∈ members) ∧ parse noNodes = .ok graph ∧
      (∀ other, ¬ SpelledBy members other) ∧
      ∀ name, name ∈ graph.nodes.map (·.id) ↔ name = "nodes" ∨ name = "links" := by
  obtain ⟨shorter, hread⟩ := noNodes_read
  have hspelled : ∀ graph, ¬ SpelledBy [("nodes", .array []), ("links", .object [])] graph :=
    not_spelledBy_of_object_links (List.mem_cons_of_mem _ List.mem_cons_self)
  obtain ⟨graph, hgraph, hnames⟩ := ofJson?_of_functions hspelled
    (by simp [IsFunctionRecord, RecordOf, under])
  refine ⟨_, _, graph, hread, rfl, ⟨_, List.mem_cons_self⟩, ?_, hspelled, fun name => ?_⟩
  · exact parse_of_some hread hgraph
  · simpa using hnames name

end GraphSpec

end CallAtlas
