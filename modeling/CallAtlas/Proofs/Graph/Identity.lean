import CallAtlas.Graph.CallGraph
import CallAtlas.Proofs.Table

/-! Which nodes of a payload a graph keeps, and how they are found again: the first node of every id, in the order of
the payload, at a number that its id leads back to.

`Roster.Lists` says what the nodes and the two tables hold after a number of nodes. One more node keeps it, whether its
id is there (`Roster.Lists.take_of_mem`) or new (`Roster.Lists.take_of_not_mem`), so it holds of all nodes of a payload
(`Roster.foldl_take_lists`). -/

namespace CallAtlas

set_option autoImplicit false

/-! ## The first node of an id -/

section

variable {nodes : List NodeSpec} {spec : NodeSpec}

theorem eraseDups_append_singleton (ids : List String) (id : String) :
    (ids ++ [id]).eraseDups = if id ∈ ids then ids.eraseDups else ids.eraseDups ++ [id] := by
  rw [List.eraseDups_append, List.removeAll]
  by_cases h : id ∈ ids <;> simp [h, List.eraseDups_cons]

theorem find?_id_eq_none_iff {id : String} : nodes.find? (·.id = id) = none ↔ id ∉ nodes.map (·.id) := by
  simp [List.find?_eq_none, List.mem_map]

theorem find?_append_of_mem (h : spec.id ∈ nodes.map (·.id)) (id : String) :
    (nodes ++ [spec]).find? (·.id = id) = nodes.find? (·.id = id) := by
  rw [List.find?_append]
  cases hfind : nodes.find? (·.id = id) with
  | some first => rfl
  | none =>
    have hne : spec.id ≠ id := by
      rintro rfl
      exact find?_id_eq_none_iff.mp hfind h
    simp [hne]

theorem find?_append_of_not_mem (h : spec.id ∉ nodes.map (·.id)) (id : String) :
    (nodes ++ [spec]).find? (·.id = id) = if spec.id = id then some spec else nodes.find? (·.id = id) := by
  rw [List.find?_append]
  split
  · next heq =>
    rw [heq] at h
    simp [find?_id_eq_none_iff.mpr h, heq]
  · next hne => simp [hne]

end

/-! ## Taking nodes in -/

namespace Roster

/-- The roster holds the first node of every id among `nodes`, and its tables lead to their numbers and details. -/
structure Lists (r : Roster) (nodes : List NodeSpec) : Prop where
  ids : r.vertices.toList.map (·.id) = (nodes.map (·.id)).eraseDups
  first : ∀ vertex ∈ r.vertices, (nodes.find? (·.id = vertex.id)).map Vertex.ofSpec = some vertex
  index : ∀ id i, r.indexById.lookup id = some i ↔ r.vertices[i]?.map (·.id) = some id
  details : ∀ id, r.detailsById.lookup id = (nodes.find? (·.id = id)).bind (·.details)

variable {r : Roster} {nodes : List NodeSpec}

theorem empty_lists : empty.Lists [] := ⟨rfl, by simp [empty], by simp [empty, Table.lookup], fun _ => rfl⟩

theorem Lists.isSome_lookup (h : r.Lists nodes) (id : String) :
    (r.indexById.lookup id).isSome ↔ id ∈ nodes.map (·.id) := by
  rw [← List.mem_eraseDups, ← h.ids, Option.isSome_iff_exists, List.mem_iff_getElem?]
  refine exists_congr fun i => (h.index id i).trans ?_
  rw [List.getElem?_map, Array.getElem?_toList]

/-- A node whose id is there changes nothing, and it is not the first one of its id. -/
theorem Lists.take_of_mem (h : r.Lists nodes) {spec : NodeSpec} (hmem : spec.id ∈ nodes.map (·.id)) :
    (r.take spec).Lists (nodes ++ [spec]) := by
  rw [Roster.take, if_pos ((h.isSome_lookup spec.id).mpr hmem)]
  constructor
  · rw [h.ids, List.map_append, List.map_singleton, eraseDups_append_singleton, if_pos hmem]
  · intro vertex hvertex
    rw [find?_append_of_mem hmem]
    exact h.first vertex hvertex
  · exact h.index
  · intro id
    rw [find?_append_of_mem hmem]
    exact h.details id

/-- A node with a new id is added behind the others, and is found under its id from then on. -/
theorem Lists.take_of_not_mem (h : r.Lists nodes) {spec : NodeSpec} (hmem : spec.id ∉ nodes.map (·.id)) :
    (r.take spec).Lists (nodes ++ [spec]) := by
  have hnew : (r.indexById.lookup spec.id).isSome = false :=
    Bool.eq_false_iff.mpr fun hsome => hmem ((h.isSome_lookup spec.id).mp hsome)
  rw [Roster.take, hnew, if_neg Bool.false_ne_true]
  constructor
  · rw [Array.toList_push, List.map_append, h.ids, List.map_append, List.map_singleton, List.map_singleton,
      eraseDups_append_singleton, if_neg hmem, Vertex.ofSpec]
  · intro vertex hvertex
    rw [find?_append_of_not_mem hmem]
    rcases Array.mem_push.mp hvertex with hold | rfl
    · have hne : spec.id ≠ vertex.id := by
        intro heq
        have hids : vertex.id ∈ r.vertices.toList.map (·.id) := List.mem_map_of_mem hold.val
        rw [h.ids, List.mem_eraseDups, ← heq] at hids
        exact hmem hids
      rw [if_neg hne]
      exact h.first vertex hold
    · exact congrArg (Option.map Vertex.ofSpec) (if_pos rfl)
  · intro id i
    rw [Table.lookup_enter, Array.getElem?_push]
    by_cases hi : i = r.vertices.size
    · subst hi
      have hout : r.vertices[r.vertices.size]? = none := Array.getElem?_size
      have hold := h.index id r.vertices.size
      rw [hout] at hold
      by_cases hid : spec.id = id
      · simp [hid, Vertex.ofSpec]
      · simpa [hid, Vertex.ofSpec] using hold
    · by_cases hid : spec.id = id
      · have hold := h.index id i
        rw [← hid] at hold ⊢
        rw [Option.isSome_eq_false_iff, Option.isNone_iff_eq_none] at hnew
        rw [if_pos rfl, if_neg hi, ← hold, hnew]
        simp [Ne.symm hi]
      · rw [if_neg hid, if_neg hi]
        exact h.index id i
  · intro id
    rw [find?_append_of_not_mem hmem]
    by_cases hid : spec.id = id
    · subst hid
      rw [if_pos rfl, Option.bind_some]
      cases hdetails : spec.details with
      | some details => exact (Table.lookup_enter _ _ _ _).trans (if_pos rfl)
      | none =>
        dsimp only
        rw [h.details, find?_id_eq_none_iff.mpr hmem]
        rfl
    · rw [if_neg hid]
      cases spec.details with
      | some details => exact ((Table.lookup_enter _ _ _ _).trans (if_neg hid)).trans (h.details id)
      | none => exact h.details id

theorem foldl_take_lists (nodes : List NodeSpec) : (nodes.foldl take empty).Lists nodes := by
  induction nodes using List.reverseRecOn with
  | nil => exact empty_lists
  | append_singleton nodes spec ih =>
    rw [List.foldl_append, List.foldl_cons, List.foldl_nil]
    by_cases hmem : spec.id ∈ nodes.map (·.id)
    · exact ih.take_of_mem hmem
    · exact ih.take_of_not_mem hmem

/-- The numbers by id are those of the table, each known to be that of a node. -/
theorem map_lookup_numbers (r : Roster) (id : String) : (r.numbers.lookup id).map (·.val) = r.indexById.lookup id := by
  suffices hlookup : ∀ (table : Table Nat) (hin : ∀ entry ∈ table, entry.2 < r.vertices.size),
      (Table.lookup id (table.pmap (fun entry h => (entry.1, (⟨entry.2, h⟩ : Fin _))) hin)).map (·.val) =
        table.lookup id from hlookup _ r.inRange
  intro table
  unfold Table.lookup
  induction table with
  | nil => exact fun _ => rfl
  | cons entry rest ih =>
    intro hin
    rw [List.pmap_cons]
    by_cases hid : entry.1 = id
    · simp [hid]
    · simpa [hid] using ih fun other hother => hin other (List.mem_cons_of_mem entry hother)

end Roster

namespace CallGraph

/-! ## Graphs of payloads -/

theorem ofSpec_ids (graph : GraphSpec) : (ofSpec graph).ids = (graph.nodes.map (·.id)).eraseDups :=
  (Roster.foldl_take_lists graph.nodes).ids

theorem ids_getElem? (g : CallGraph) (i : Fin g.size) : g.ids[i.val]? = some (g.vertices.get i).id := by
  simp [ids, Vector.get_eq_getElem]

theorem ofSpec_indexOf_val (graph : GraphSpec) (id : String) (i : Nat) :
    ((ofSpec graph).indexOf id).map (·.val) = some i ↔
      ∃ h : i < (ofSpec graph).size, ((ofSpec graph).vertices.get ⟨i, h⟩).id = id := by
  refine (Eq.congr_left (Roster.map_lookup_numbers _ id)).trans ?_
  rw [(Roster.foldl_take_lists graph.nodes).index, Option.map_eq_some_iff]
  constructor
  · rintro ⟨vertex, hvertex, hid⟩
    obtain ⟨h, rfl⟩ := Array.getElem?_eq_some_iff.mp hvertex
    exact ⟨h, hid⟩
  · rintro ⟨h, hid⟩
    exact ⟨_, Array.getElem?_eq_some_iff.mpr ⟨h, rfl⟩, hid⟩

theorem ofSpec_indexOf (graph : GraphSpec) (id : String) (i : Fin (ofSpec graph).size) :
    (ofSpec graph).indexOf id = some i ↔ ((ofSpec graph).vertices.get i).id = id := by
  have hval := ofSpec_indexOf_val graph id i.val
  rw [Option.map_eq_some_iff] at hval
  constructor
  · intro h
    obtain ⟨_, hid⟩ := hval.mp ⟨i, h, rfl⟩
    exact hid
  · intro hid
    obtain ⟨j, hj, heq⟩ := hval.mpr ⟨i.isLt, hid⟩
    rw [hj, Fin.ext heq]

theorem ofSpec_id_injective (graph : GraphSpec) (i j : Fin (ofSpec graph).size)
    (h : ((ofSpec graph).vertices.get i).id = ((ofSpec graph).vertices.get j).id) : i = j := by
  have hi := (ofSpec_indexOf graph _ i).mpr h
  have hj := (ofSpec_indexOf graph _ j).mpr rfl
  exact Option.some.inj (hi.symm.trans hj)

theorem ofSpec_ids_nodup (graph : GraphSpec) : (ofSpec graph).ids.Nodup := by
  rw [List.nodup_iff_injective_get]
  intro i j h
  have hlength : (ofSpec graph).ids.length = (ofSpec graph).size := by simp [ids]
  have hget : ∀ k : Fin (ofSpec graph).ids.length,
      (ofSpec graph).ids.get k = ((ofSpec graph).vertices.get (k.cast hlength)).id := by
    intro k
    obtain ⟨_, hk⟩ := List.getElem?_eq_some_iff.mp (ids_getElem? (ofSpec graph) (k.cast hlength))
    exact hk
  rw [hget, hget] at h
  exact Fin.cast_injective hlength (ofSpec_id_injective graph _ _ h)

theorem ofSpec_indexOf_eq_none_iff (graph : GraphSpec) (id : String) :
    (ofSpec graph).indexOf id = none ↔ id ∉ (ofSpec graph).ids := by
  rw [ofSpec_ids, List.mem_eraseDups, ← (Roster.foldl_take_lists graph.nodes).isSome_lookup,
    ← Roster.map_lookup_numbers, Option.isSome_map, Bool.not_eq_true, Option.isSome_eq_false_iff,
    Option.isNone_iff_eq_none]
  rfl

/-- A vertex is made of the first node of the payload with its id. -/
theorem ofSpec_get (graph : GraphSpec) (i : Fin (ofSpec graph).size) :
    ∃ spec, graph.nodes.find? (·.id = ((ofSpec graph).vertices.get i).id) = some spec ∧
      (ofSpec graph).vertices.get i = Vertex.ofSpec spec := by
  have hfirst := (Roster.foldl_take_lists graph.nodes).first ((ofSpec graph).vertices.get i) (Array.getElem_mem _)
  obtain ⟨spec, hfind, hspec⟩ := Option.map_eq_some_iff.mp hfirst
  exact ⟨spec, hfind, hspec.symm⟩

theorem ofSpec_vertex? (graph : GraphSpec) (id : String) :
    (ofSpec graph).vertex? id = (graph.nodes.find? (·.id = id)).map Vertex.ofSpec := by
  rw [vertex?]
  cases hindex : (ofSpec graph).indexOf id with
  | some i =>
    obtain ⟨spec, hfind, hspec⟩ := ofSpec_get graph i
    rw [(ofSpec_indexOf graph id i).mp hindex] at hfind
    rw [hfind, Option.map_some, Option.map_some, hspec]
  | none =>
    have hids := (ofSpec_indexOf_eq_none_iff graph id).mp hindex
    rw [ofSpec_ids, List.mem_eraseDups] at hids
    rw [find?_id_eq_none_iff.mpr hids]
    rfl

theorem ofSpec_details (graph : GraphSpec) (id : String) :
    (ofSpec graph).details id = (graph.nodes.find? (·.id = id)).bind (·.details) :=
  (Roster.foldl_take_lists graph.nodes).details id

theorem mem_ids_of_details (graph : GraphSpec) (id : String) (h : ((ofSpec graph).details id).isSome) :
    id ∈ (ofSpec graph).ids := by
  rw [ofSpec_details] at h
  rw [ofSpec_ids, List.mem_eraseDups]
  by_contra hids
  rw [find?_id_eq_none_iff.mpr hids] at h
  cases h

/-- A graph keeps the first node of every id and nothing of the later ones. -/
theorem ofSpec_keeps_first_occurrences (graph : GraphSpec) :
    (ofSpec graph).ids = (graph.nodes.map (·.id)).eraseDups ∧ (ofSpec graph).ids.Nodup ∧
    (∀ (id : String) (i : Nat),
      ((ofSpec graph).indexOf id).map (·.val) = some i ↔
        ∃ h : i < (ofSpec graph).size, ((ofSpec graph).vertices.get ⟨i, h⟩).id = id) ∧
    (∀ id : String, (ofSpec graph).indexOf id = none ↔ id ∉ (ofSpec graph).ids) ∧
    (∀ i : Fin (ofSpec graph).size,
      ∃ spec, graph.nodes.find? (·.id = ((ofSpec graph).vertices.get i).id) = some spec ∧
        ((ofSpec graph).vertices.get i).depth = spec.ring ∧
        ((ofSpec graph).vertices.get i).metrics = spec.metrics) ∧
    (∀ id : String, (ofSpec graph).details id = (graph.nodes.find? (·.id = id)).bind (·.details)) ∧
    ∀ id : String, ((ofSpec graph).details id).isSome → id ∈ (ofSpec graph).ids := by
  refine ⟨ofSpec_ids graph, ofSpec_ids_nodup graph, ofSpec_indexOf_val graph,
    ofSpec_indexOf_eq_none_iff graph, fun i => ?_, ofSpec_details graph, mem_ids_of_details graph⟩
  obtain ⟨spec, hfind, hspec⟩ := ofSpec_get graph i
  refine ⟨spec, hfind, ?_, ?_⟩
  · rw [hspec, Vertex.ofSpec]
  · rw [hspec, Vertex.ofSpec]

end CallGraph

end CallAtlas
