import CallAtlas.Proofs.Graph.Identity
import CallAtlas.Proofs.Text.Lowercase
import CallAtlas.Search.Index

/-! What a query matches, and when a longer query matches less.

An id matches a query that it contains in lower case (`mem_start`). So a longer query keeps to the matches of a shorter
one in every graph if and only if it contains that one in lower case as well. For parts of a text this is not always so:
a capital sigma at the end of the shorter query is written as at the end of a word, and in the longer one it may stand
within the word. `narrows_iff_settled` says for which queries nothing of this kind can happen. -/

namespace CallAtlas.Search

set_option autoImplicit false

/-! ## Matches -/

theorem contains_iff_infix (needle text : List Char) : contains needle text = true ↔ needle <:+: text := by
  induction text with
  | nil =>
    rw [contains, List.isEmpty_iff, List.infix_nil]
  | cons c rest ih =>
    rw [contains, Bool.or_eq_true, List.isPrefixOf_iff_prefix, ih, List.infix_cons_iff]

theorem mem_matchesIn (g : CallGraph) (query id : String) :
    id ∈ matchesIn g query ↔ id ∈ g.ids ∧ query ≠ "" ∧ Text.lowercase query <:+: Text.lowercase id := by
  unfold matchesIn
  split
  · next hempty => simp [hempty]
  · next hquery => rw [List.mem_filter, matchesQuery, contains_iff_infix, and_iff_right (a := query ≠ "") hquery]

theorem matchesIn_nodup (g : CallGraph) (query : String) (h : g.ids.Nodup) : (matchesIn g query).Nodup := by
  unfold matchesIn
  split
  · exact List.nodup_nil
  · exact h.filter _

theorem start_matched {query : String} (hquery : Text.isBlankText query = false) (g : CallGraph) :
    (start g query).matched = g.ids.filter (matchesQuery query) := by
  have hne : query ≠ "" := by
    rintro rfl
    exact absurd hquery (by decide)
  rw [start, if_neg (by simp [hquery]), matchesIn, if_neg hne]

theorem mem_start {query : String} (hquery : Text.isBlankText query = false) (g : CallGraph) (id : String) :
    id ∈ (start g query).matched ↔ id ∈ g.ids ∧ Text.lowercase query <:+: Text.lowercase id := by
  rw [start_matched hquery, List.mem_filter, matchesQuery, contains_iff_infix]

/-! ## Longer queries -/

theorem isBlankText_of_contained {query longer : String} (hquery : Text.isBlankText query = false)
    (hlonger : query.toList <:+: longer.toList) : Text.isBlankText longer = false := by
  rw [Text.isBlankText, List.all_eq_false] at hquery ⊢
  obtain ⟨c, hc, hblank⟩ := hquery
  exact ⟨c, hlonger.subset hc, hblank⟩

theorem mem_ids_ofSpec_ofId (id : String) : id ∈ (CallGraph.ofSpec ⟨[.ofId id], []⟩).ids := by
  rw [CallGraph.ofSpec_ids, List.mem_eraseDups]
  exact List.mem_singleton.mpr rfl

/-- A longer query keeps to the matches of a shorter one in all graphs if and only if it contains that one in lower
case: it matches itself. -/
theorem subset_iff_contained {query longer : String} (hquery : Text.isBlankText query = false)
    (hlonger : query.toList <:+: longer.toList) :
    (∀ payload, (start (.ofSpec payload) longer).matched ⊆ (start (.ofSpec payload) query).matched) ↔
      Text.lowercase query <:+: Text.lowercase longer := by
  constructor
  · intro hsubset
    have hself : longer ∈ (start (.ofSpec ⟨[.ofId longer], []⟩) longer).matched :=
      (mem_start (isBlankText_of_contained hquery hlonger) _ _).mpr ⟨mem_ids_ofSpec_ofId longer, List.infix_rfl⟩
    exact ((mem_start hquery _ _).mp (hsubset _ hself)).2
  · intro hinfix payload id hid
    obtain ⟨hmem, hcontains⟩ := (mem_start (isBlankText_of_contained hquery hlonger) _ _).mp hid
    exact (mem_start hquery _ _).mpr ⟨hmem, hinfix.trans hcontains⟩

theorem alpha_decides : Text.isCaseIgnorable 'Α' = false ∧ Text.isCased 'Α' = true := by
  rw [Text.isCaseIgnorable_eq, Text.isCased_eq]
  decide +kernel

/-- All longer queries keep to the matches of a query if and only if the query settles its capital sigmas, and so it is
with the ids that contain the query: all of them match if and only if it does. A single longer query keeps to the
matches if and only if it contains the query in lower case. -/
theorem narrows_iff_settled (query : String) (hquery : Text.isBlankText query = false) :
    ((∀ payload (longer : String), query.toList <:+: longer.toList →
        (start (.ofSpec payload) longer).matched ⊆ (start (.ofSpec payload) query).matched) ↔
      Text.SigmasSettled query.toList) ∧
    ((∀ payload, ∀ id ∈ (CallGraph.ofSpec payload).ids, query.toList <:+: id.toList →
        id ∈ (start (.ofSpec payload) query).matched) ↔ Text.SigmasSettled query.toList) ∧
    ∀ longer : String, query.toList <:+: longer.toList →
      ((∀ payload, (start (.ofSpec payload) longer).matched ⊆ (start (.ofSpec payload) query).matched) ↔
        Text.lowercase query <:+: Text.lowercase longer) := by
  refine ⟨⟨fun hnarrows => ?_, fun hsettled payload longer hlonger => ?_⟩,
    ⟨fun hmatched => ?_, fun hsettled payload id hid hcontains => ?_⟩, fun longer => subset_iff_contained hquery⟩
  · by_contra hunsettled
    obtain ⟨longer, hlonger, hnot⟩ := Text.exists_not_infix_of_not_settled hunsettled
    exact hnot ((subset_iff_contained hquery hlonger).mp fun payload => hnarrows payload longer hlonger)
  · exact (subset_iff_contained hquery hlonger).mpr (Text.lowercase_infix_of_settled hsettled hlonger) payload
  · by_contra hunsettled
    obtain ⟨id, hcontains, hnot⟩ := Text.exists_not_infix_of_not_settled hunsettled
    exact hnot ((mem_start hquery _ _).mp (hmatched _ id (mem_ids_ofSpec_ofId id) hcontains)).2
  · exact (mem_start hquery _ _).mpr ⟨hid, Text.lowercase_infix_of_settled hsettled hcontains⟩

/-- A space between two capital sigmas settles both: one ends a word and the other one does not, in whatever longer
query they stand. -/
theorem spaced_sigmas_narrow :
    Text.isBlankText "ΑΣ ΣΑ" = false ∧ ∀ payload (longer : String), "ΑΣ ΣΑ".toList <:+: longer.toList →
      (start (.ofSpec payload) longer).matched ⊆ (start (.ofSpec payload) "ΑΣ ΣΑ").matched := by
  have hblank : Text.isBlankText "ΑΣ ΣΑ" = false := by decide
  have hspace : Text.isCaseIgnorable ' ' = false ∧ Text.isCased ' ' = false := by
    rw [Text.isCaseIgnorable_eq, Text.isCased_eq]
    decide +kernel
  have hsettled : Text.SigmasSettled ['Α', 'Σ', ' ', 'Σ', 'Α'] := by
    simp only [Text.SigmasSettled, Text.forall_sigma_cons]
    refine ⟨by simp, fun _ => ?_, by simp, fun _ => ?_, by simp, by simp⟩
    · refine Or.inr (Or.inr ⟨?_, ?_⟩)
      · exact (Text.startsCased_cons alpha_decides.1 []).trans alpha_decides.2
      · rw [Text.decider?_cons hspace.1]
        exact Option.some_ne_none ' '
    · exact Or.inl ⟨' ', Text.decider?_cons hspace.1 _, hspace.2⟩
  exact ⟨hblank, (narrows_iff_settled "ΑΣ ΣΑ" hblank).1.mpr hsettled⟩

/-- The id `ΑΣΑ` contains `ΑΣ`, and is matched by `ΑΣΑ` but not by `ΑΣ`, which ends with the sigma of the end of a
word. -/
theorem finalSigma_not_matched :
    "ΑΣ".toList <:+: "ΑΣΑ".toList ∧ Text.isBlankText "ΑΣ" = false ∧
      (start (.ofSpec ⟨[.ofId "ΑΣΑ"], []⟩) "ΑΣΑ").matched = ["ΑΣΑ"] ∧
      (start (.ofSpec ⟨[.ofId "ΑΣΑ"], []⟩) "ΑΣ").matched = [] := by
  have hids : (CallGraph.ofSpec ⟨[.ofId "ΑΣΑ"], []⟩).ids = ["ΑΣΑ"] := by decide +kernel
  have hsmall : Text.lowercaseChar 'Α' = ['α'] := by
    rw [Text.lowercaseChar, ← Array.find?_toList]
    decide +kernel
  have hcased := fun rest => (Text.startsCased_cons alpha_decides.1 rest).trans alpha_decides.2
  have hquery : Text.lowercase "ΑΣ" = ['α', 'ς'] := by
    change Text.lowercaseFrom [] ['Α', 'Σ'] = _
    simp [Text.lowercaseFrom, hsmall, hcased, Text.startsCased_nil]
  have hid : Text.lowercase "ΑΣΑ" = ['α', 'σ', 'α'] := by
    change Text.lowercaseFrom [] ['Α', 'Σ', 'Α'] = _
    simp [Text.lowercaseFrom, hsmall, hcased]
  have hself : matchesQuery "ΑΣΑ" "ΑΣΑ" = true := by
    rw [matchesQuery, hid]
    decide
  have hnot : ¬ matchesQuery "ΑΣ" "ΑΣΑ" = true := by
    rw [matchesQuery, hquery, hid]
    decide
  have hblank : Text.isBlankText "ΑΣ" = false := by decide
  refine ⟨by decide, hblank, ?_, ?_⟩
  · rw [start_matched (by decide), hids, List.filter_cons_of_pos hself, List.filter_nil]
  · rw [start_matched hblank, hids, List.filter_cons_of_neg hnot, List.filter_nil]

end CallAtlas.Search
