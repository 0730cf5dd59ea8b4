import CallAtlas.Graph.CallGraph
import CallAtlas.Proofs.Table

/-! The fields of a node: how its metrics and texts are found among them, and how they are entered. -/

namespace CallAtlas

set_option autoImplicit false

open Json
open Table (lookup)

/-! ## Fields of a node -/

namespace NodeSpec

/-- A metric is a field that holds a number. -/
theorem lookup_metrics {spec : NodeSpec} (h : Increasing spec.fields) (name : String) :
    lookup name spec.metrics = (lookup name spec.fields).bind float? := by
  unfold metrics lookup
  generalize spec.fields = fields at h ⊢
  induction fields with
  | nil => rfl
  | cons first rest ih =>
    obtain ⟨key, value⟩ := first
    have hrest := ih h.of_cons
    by_cases hname : key = name
    · subst hname
      cases hvalue : value.float? with
      | some x => simp [hvalue]
      | none =>
        have hlater : rest.find? (·.1 = key) = none := by
          rw [List.find?_eq_none]
          intro entry hentry
          have hlt : key < entry.1 := List.rel_of_pairwise_cons h hentry
          simpa using hlt.ne'
        rw [hlater] at hrest
        simpa [hvalue] using hrest
    · cases hvalue : value.float? with
      | some x => simpa [hvalue, hname] using hrest
      | none => simpa [hvalue, hname] using hrest

theorem ofSpec_metric {spec : NodeSpec} (h : Increasing spec.fields) {name : String} {found : Option Float}
    (hfound : (lookup name spec.fields).bind float? = found) (hfinite : ∀ x ∈ found, x.isFinite = true) :
    (Vertex.ofSpec spec).metric name = found.getD 0.0 := by
  have hlookup : lookup name (Vertex.ofSpec spec).metrics = found := (lookup_metrics h name).trans hfound
  unfold Vertex.metric
  rw [hlookup]
  cases found with
  | none => rfl
  | some x => exact if_pos (hfinite x rfl)

theorem mem_ofSpec_metricNames {spec : NodeSpec} (h : Increasing spec.fields) (name : String) :
    name ∈ (Vertex.ofSpec spec).metricNames ↔ ((lookup name spec.fields).bind float?).isSome := by
  rw [← lookup_metrics h]
  exact Table.isSome_lookup.symm

/-- The texts of a node are among its details, and there are none if the node has no details. -/
theorem bind_details (spec : NodeSpec) :
    spec.details.bind (·.file) = spec.text "file" ∧ spec.details.bind (·.breadcrumbs) = spec.text "breadcrumbs" ∧
      spec.details.bind (·.code) = spec.text "code" := by
  unfold details
  dsimp only
  split
  · next hempty =>
    have hfile := congrArg NodeDetails.file hempty
    have hbreadcrumbs := congrArg NodeDetails.breadcrumbs hempty
    have hcode := congrArg NodeDetails.code hempty
    exact ⟨hfile.symm, hbreadcrumbs.symm, hcode.symm⟩
  · exact ⟨rfl, rfl, rfl⟩

/-! ## Entering values -/

/-- Enters a value under a name, if there is one. -/
def enter (spec : NodeSpec) (entry : String × Option Json) : NodeSpec :=
  match entry.2 with
  | some value => spec.withField entry.1 value
  | none => spec

theorem enter_increasing {spec : NodeSpec} (h : Increasing spec.fields) (entry : String × Option Json) :
    Increasing (spec.enter entry).fields := by
  unfold enter
  split
  · exact Table.increasing_enter h _ _
  · exact h

theorem lookup_enter (spec : NodeSpec) (entry : String × Option Json) (name : String) :
    lookup name (spec.enter entry).fields =
      if entry.1 = name then entry.2.or (lookup name spec.fields) else lookup name spec.fields := by
  unfold enter
  split
  · next value hvalue =>
    rw [withField, Table.lookup_enter, hvalue]
    rfl
  · next hnone =>
    rw [hnone, Option.none_or, ite_self]

theorem foldl_enter_increasing (entries : List (String × Option Json)) {spec : NodeSpec} (h : Increasing spec.fields) :
    Increasing (entries.foldl enter spec).fields := by
  induction entries generalizing spec with
  | nil => exact h
  | cons entry rest ih => exact ih (enter_increasing h entry)

theorem lookup_foldl_enter_of_not_mem {entries : List (String × Option Json)} {name : String}
    (h : name ∉ entries.map (·.1)) (spec : NodeSpec) :
    lookup name (entries.foldl enter spec).fields = lookup name spec.fields := by
  induction entries generalizing spec with
  | nil => rfl
  | cons entry rest ih =>
    rw [List.map_cons, List.mem_cons, not_or] at h
    rw [List.foldl_cons, ih h.2, lookup_enter, if_neg (Ne.symm h.1)]

/-- Of values that are entered under different names, each is found under its own. -/
theorem lookup_foldl_enter {entries : List (String × Option Json)} (hdistinct : (entries.map (·.1)).Nodup)
    {name : String} {value : Option Json} (hmem : (name, value) ∈ entries) (spec : NodeSpec) :
    lookup name (entries.foldl enter spec).fields = value.or (lookup name spec.fields) := by
  induction entries generalizing spec with
  | nil => cases hmem
  | cons entry rest ih =>
    rw [List.map_cons, List.nodup_cons] at hdistinct
    rw [List.foldl_cons]
    rcases List.mem_cons.mp hmem with rfl | hrest
    · rw [lookup_foldl_enter_of_not_mem hdistinct.1, lookup_enter, if_pos rfl]
    · have hne : entry.1 ≠ name := fun heq => hdistinct.1 (heq ▸ List.mem_map_of_mem hrest)
      rw [ih hdistinct.2 hrest, lookup_enter, if_neg hne]

end NodeSpec

end CallAtlas
