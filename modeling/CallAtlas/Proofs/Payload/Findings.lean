import CallAtlas.Payload.Spec
import CallAtlas.Proofs.Json.Forms

/-! What a node shows of its findings when some of them are malformed.

A list of findings is decoded as a whole, so all entries are kept or none is. The well-formed entries are shown, and
nothing else, exactly if all entries are well-formed or none is (`details_findings`). Otherwise one malformed entry
hides the well-formed ones beside it (`maskedFinding_hidden`). -/

namespace CallAtlas

set_option autoImplicit false

open Json
open Table (lookup)

/-! ## Well-formed findings -/

/-- A whole number without a sign. -/
def Json.IsCount (value : Json) : Prop := ∃ n, value = .number (.natural n)

theorem Json.isSome_nat? (value : Json) : value.nat?.isSome ↔ IsCount value := by
  cases value with
  | number n => cases n <;> simp [nat?, IsCount]
  | null | bool | string | array | object => simp [nat?, IsCount]

/-- A record of texts and a line. Its fields may be null or missing, and it may have others beside them. -/
def IsFinding : Json → Prop :=
  RecordOf [("type", NullOr IsText), ("name", NullOr IsText), ("severity", NullOr IsText), ("line", NullOr IsCount),
    ("description", NullOr IsText)]

theorem Finding.isSome_decode? (value : Json) : (Finding.decode? value).isSome ↔ IsFinding value := by
  have htext := isSome_orElse (isSome_optional? isSome_string?) none
  have hline := isSome_orElse (isSome_optional? isSome_nat?) none
  rw [IsFinding, recordOf_iff, Finding.decode?]
  cases hfields : fields? ["type", "name", "severity", "line", "description"] value with
  | none => simp [hfields]
  | some fields =>
    match fields, length_of_fields? hfields with
    | [kind, name, severity, line, description], _ =>
      simp only [List.map_cons, List.map_nil, hfields, Option.some.injEq, exists_eq_left', Option.bind_eq_bind,
        Option.bind_some, List.forall₂_cons, List.Forall₂.nil, ← htext, ← hline]
      exact isSome_bind_iff fun _ => isSome_bind_iff fun _ => isSome_bind_iff fun _ => isSome_bind_iff fun _ =>
        isSome_bind_iff fun _ => by simp

theorem Finding.decode?_eq_none_iff (value : Json) : Finding.decode? value = none ↔ ¬ IsFinding value := by
  rw [← Finding.isSome_decode?, Option.not_isSome_iff_eq_none]

/-! ## Findings of a node -/

/-- The two lists of findings that a node may have. -/
inductive FindingList where
  | codeSmells
  | securityIssues

namespace FindingList

/-- The field that holds the list. -/
def field : FindingList → String
  | codeSmells => "code_smells"
  | securityIssues => "security_issues"

/-- The list among the details of a node. Without details there are no findings. -/
def shown : FindingList → Option NodeDetails → List Finding
  | _, none => []
  | codeSmells, some details => details.codeSmells
  | securityIssues, some details => details.securityIssues

end FindingList

theorem Json.filterMap_of_mapM {α β : Type} {f : α → Option β} {xs : List α} {ys : List β} (h : xs.mapM f = some ys) :
    xs.filterMap f = ys := by
  have hpairs := mapM_eq_some_iff.mp h
  clear h
  induction hpairs with
  | nil => rfl
  | cons hfirst _ ih => rw [List.filterMap_cons_some hfirst, ih]

namespace NodeSpec

variable (spec : NodeSpec) (list : FindingList)

/-- Details are left out only if they hold no finding, so the lists are those of the fields either way. -/
theorem shown_details :
    list.shown spec.details = (spec.analysis list.field (list? Finding.decode?)).getD [] := by
  unfold details
  dsimp only
  split
  · next hempty =>
    cases list with
    | codeSmells => exact (congrArg NodeDetails.codeSmells hempty).symm
    | securityIssues => exact (congrArg NodeDetails.securityIssues hempty).symm
  · cases list <;> rfl

theorem shown_details_of_array {items : List Json} (h : lookup list.field spec.fields = some (.array items)) :
    list.shown spec.details = (items.mapM Finding.decode?).getD [] := by
  rw [shown_details, analysis, h]
  rfl

/-- If all entries of a list of findings are well-formed, the details show them in their order, each decoded. If one of
them is not, they show none. So they show what decodes, and only that, exactly if all entries are well-formed or none
is. -/
theorem details_findings {items : List Json} (h : lookup list.field spec.fields = some (.array items)) :
    ((∀ item ∈ items, IsFinding item) →
      List.Forall₂ (fun item finding => Finding.decode? item = some finding) items (list.shown spec.details)) ∧
    ((∃ item ∈ items, ¬ IsFinding item) → list.shown spec.details = []) ∧
    (list.shown spec.details = items.filterMap Finding.decode? ↔
      (∀ item ∈ items, IsFinding item) ∨ ∀ item ∈ items, ¬ IsFinding item) := by
  have hall : (items.mapM Finding.decode?).isSome ↔ ∀ item ∈ items, IsFinding item := by
    simp only [isSome_mapM, Finding.isSome_decode?]
  rw [spec.shown_details_of_array list h]
  cases hread : items.mapM Finding.decode? with
  | some findings =>
    have hforms : ∀ item ∈ items, IsFinding item := hall.mp (by rw [hread]; rfl)
    refine ⟨fun _ => mapM_eq_some_iff.mp hread, ?_, ?_⟩
    · rintro ⟨item, hitem, hmalformed⟩
      exact absurd (hforms item hitem) hmalformed
    · exact iff_of_true (filterMap_of_mapM hread).symm (Or.inl hforms)
  | none =>
    have hmalformed : ¬ ∀ item ∈ items, IsFinding item := by
      rw [← hall, hread]
      exact Bool.false_ne_true
    refine ⟨fun hforms => absurd hforms hmalformed, fun _ => rfl, ?_⟩
    rw [or_iff_right hmalformed, Option.getD_none, eq_comm, List.filterMap_eq_nil_iff]
    simp only [Finding.decode?_eq_none_iff]

/-- A finding as an object, one as an array of its first fields, and one without fields. -/
def threeForms : List Json :=
  [.object [("type", .string "long"), ("line", .number (.natural 7))], .array [.string "unused", .null], .object []]

theorem threeForms_shown : ∃ spec : NodeSpec, lookup "code_smells" spec.fields = some (.array threeForms) ∧
    FindingList.codeSmells.shown spec.details =
      [⟨some "long", none, none, some 7, none⟩, ⟨some "unused", none, none, none, none⟩,
        ⟨none, none, none, none, none⟩] := by
  have hforms : ∀ item ∈ threeForms, IsFinding item := by
    simp only [← Finding.isSome_decode?]
    exact isSome_mapM.mp rfl
  have hshown := (details_findings ⟨"a", none, [("code_smells", .array threeForms)]⟩ .codeSmells rfl).2.2
  exact ⟨_, rfl, (hshown.mpr (Or.inl hforms)).trans rfl⟩

/-- A node with a well-formed finding and a number beside it. -/
def maskedFinding : NodeSpec :=
  ⟨"a", none, [("file", .string "a.py"), ("security_issues", .array [.object [("type", .string "eval"),
    ("severity", .string "high")], .number (.natural 7)])]⟩

/-- The number is not all that is dropped. -/
theorem maskedFinding_hidden :
    ∃ items, lookup "security_issues" maskedFinding.fields = some (.array items) ∧
      items.filterMap Finding.decode? = [⟨some "eval", none, some "high", none, none⟩] ∧
      maskedFinding.details.isSome ∧ FindingList.securityIssues.shown maskedFinding.details = [] :=
  ⟨_, rfl, rfl, rfl, rfl⟩

end NodeSpec

end CallAtlas
