import CallAtlas.Json.Decode
import Mathlib.Data.List.Forall2

/-!
The forms of values, stated without a decoder: texts, numbers, lists and records.

For each form a lemma says that its decoder succeeds on the values of that form and no others.
-/

namespace CallAtlas.Json

set_option autoImplicit false

open Table (lookup)

variable {τ : Type}

theorem mapM_eq_some_iff {α β : Type} {f : α → Option β} {xs : List α} {ys : List β} :
    xs.mapM f = some ys ↔ List.Forall₂ (fun x y => f x = some y) xs ys := by
  induction xs generalizing ys with
  | nil => cases ys <;> simp
  | cons x xs ih => cases ys <;> simp [List.mapM_cons, Option.bind_eq_some_iff, ← ih]

theorem exists_of_mem_mapM {α β : Type} {f : α → Option β} {xs : List α} {ys : List β} (h : xs.mapM f = some ys) {y : β}
    (hy : y ∈ ys) : ∃ x ∈ xs, f x = some y := by
  have hpairs := mapM_eq_some_iff.mp h
  clear h
  induction hpairs with
  | nil => cases hy
  | cons hfirst _ ih =>
    rcases List.mem_cons.mp hy with rfl | hrest
    · exact ⟨_, List.mem_cons_self, hfirst⟩
    · obtain ⟨x, hx, hfx⟩ := ih hrest
      exact ⟨x, List.mem_cons_of_mem _ hx, hfx⟩

theorem isSome_mapM {α β : Type} {f : α → Option β} {xs : List α} :
    (xs.mapM f).isSome ↔ ∀ x ∈ xs, (f x).isSome := by
  induction xs with
  | nil => simp
  | cons x xs ih =>
    rw [List.mapM_cons, List.forall_mem_cons, ← ih]
    cases f x <;> cases xs.mapM f <;> simp

theorem isSome_bind_iff {α β : Type} {o : Option α} {f : α → Option β} {p : Prop} (h : ∀ x, (f x).isSome ↔ p) :
    (o.bind f).isSome ↔ o.isSome ∧ p := by
  cases o <;> simp [h]

/-! ## Members by name -/

/-- The values that stand under a name, in the order of the text. -/
def under (name : String) (members : List (String × Json)) : List Json :=
  (members.filter (·.1 = name)).map (·.2)

theorem mem_under {name : String} {value : Json} {members : List (String × Json)} :
    value ∈ under name members ↔ (name, value) ∈ members := by
  simp [under]

theorem lookup_cases {name : String} {members : List (String × Json)} (hone : (under name members).length ≤ 1) :
    under name members = [] ∧ lookup name members = none ∨
      ∃ value, under name members = [value] ∧ lookup name members = some value := by
  have hhead : lookup name members = (under name members).head? := by simp [lookup, under, List.head?_filter]
  rw [hhead]
  match under name members, hone with
  | [], _ => exact .inl ⟨rfl, rfl⟩
  | [value], _ => exact .inr ⟨value, rfl, rfl⟩

theorem repeats_eq_false_iff {name : String} {members : List (String × Json)} :
    repeats name members = false ↔ (under name members).length ≤ 1 := by
  simp [repeats, under]

/-! ## Forms -/

def IsText (value : Json) : Prop := ∃ s, value = .string s

def IsNumber (value : Json) : Prop := ∃ n, value = .number n

def NullOr (form : Json → Prop) (value : Json) : Prop := value = .null ∨ form value

def ListOf (form : Json → Prop) (value : Json) : Prop := ∃ items, value = .array items ∧ ∀ item ∈ items, form item

/-- A record whose fields have the given names and forms and may all be missing. -/
def RecordOf (forms : List (String × (Json → Prop))) : Json → Prop
  | .object members =>
    ∀ form ∈ forms, (under form.1 members).length ≤ 1 ∧ ∀ value ∈ under form.1 members, form.2 value
  | .array items => items.length ≤ forms.length ∧ ∀ entry ∈ items.zip forms, entry.2.2 entry.1
  | _ => False

theorem isSome_string? (value : Json) : value.string?.isSome ↔ IsText value := by
  cases value <;> simp [string?, IsText]

theorem isSome_float? (value : Json) : value.float?.isSome ↔ IsNumber value := by
  cases value <;> simp [float?, IsNumber]

section

variable {decode : Json → Option τ} {form : Json → Prop} (h : ∀ value, (decode value).isSome ↔ form value)
include h

theorem isSome_optional? (value : Json) : (optional? decode value).isSome ↔ NullOr form value := by
  cases value <;> simp [optional?, NullOr, ← h]

theorem isSome_list? (value : Json) : (list? decode value).isSome ↔ ListOf form value := by
  cases value <;> simp [list?, ListOf, ← h, isSome_mapM]

theorem isSome_orElse (missing : τ) (field : Option Json) :
    (orElse missing decode field).isSome ↔ ∀ value ∈ field, form value := by
  cases field <;> simp [orElse, ← h]

end

/-- Exactly one value stands under the name, and it is a list of these. -/
def Lists (decode : Json → Option τ) (name : String) (members : List (String × Json)) (xs : List τ) : Prop :=
  ∃ items, under name members = [.array items] ∧ List.Forall₂ (fun item x => decode item = some x) items xs

theorem bind_list?_eq_some_iff {decode : Json → Option τ} {name : String} {members : List (String × Json)}
    {xs : List τ} (hone : (under name members).length ≤ 1) :
    (lookup name members).bind (list? decode) = some xs ↔ Lists decode name members xs := by
  obtain ⟨hunder, hlookup⟩ | ⟨value, hunder, hlookup⟩ := lookup_cases hone
  · simp [Lists, hunder, hlookup]
  · cases value <;> simp [Lists, hunder, hlookup, list?, mapM_eq_some_iff]

theorem orElse_list?_eq_some_iff {decode : Json → Option τ} {name : String} {members : List (String × Json)}
    {xs : List τ} (hone : (under name members).length ≤ 1) :
    orElse [] (list? decode) (lookup name members) = some xs ↔
      under name members = [] ∧ xs = [] ∨ Lists decode name members xs := by
  obtain ⟨hunder, hlookup⟩ | ⟨value, hunder, hlookup⟩ := lookup_cases hone
  · simp [Lists, hunder, hlookup, orElse, eq_comm]
  · cases value <;> simp [Lists, hunder, hlookup, orElse, list?, mapM_eq_some_iff]

/-! ## Fields -/

theorem fields?_object_eq_some_iff {names : List String} {members : List (String × Json)}
    {fields : List (Option Json)} :
    fields? names (.object members) = some fields ↔
      (∀ name ∈ names, (under name members).length ≤ 1) ∧ names.map (lookup · members) = fields := by
  simp [fields?, repeats_eq_false_iff]

theorem fields?_array_eq_some_iff {names : List String} {items : List Json} {fields : List (Option Json)} :
    fields? names (.array items) = some fields ↔
      items.length ≤ names.length ∧ names.zipIdx.map (fun entry => items[entry.2]?) = fields := by
  simp [fields?]

theorem length_of_fields? {names : List String} {value : Json} {fields : List (Option Json)}
    (h : fields? names value = some fields) : fields.length = names.length := by
  cases value with
  | object members =>
    obtain ⟨-, rfl⟩ := fields?_object_eq_some_iff.1 h
    simp
  | array items =>
    obtain ⟨-, rfl⟩ := fields?_array_eq_some_iff.1 h
    simp
  | null | bool | number | string => simp [fields?] at h

theorem forall_mem_lookup_iff {name : String} {members : List (String × Json)} {form : Json → Prop}
    (hone : (under name members).length ≤ 1) :
    (∀ value ∈ lookup name members, form value) ↔ ∀ value ∈ under name members, form value := by
  obtain ⟨hunder, hlookup⟩ | ⟨value, hunder, hlookup⟩ := lookup_cases hone <;> simp [hunder, hlookup]

/-- The fields of an array are its items, and each stands at the place of its form. -/
theorem forall₂_items_iff (items : List Json) (forms : List (String × (Json → Prop))) :
    List.Forall₂ (fun field form => ∀ value ∈ field, form.2 value)
      ((forms.map (·.1)).zipIdx.map fun entry => items[entry.2]?) forms ↔
      ∀ entry ∈ items.zip forms, entry.2.2 entry.1 := by
  simp only [List.forall₂_iff_get, List.forall_mem_iff_getElem, List.length_map, List.length_zipIdx, true_and,
    List.get_eq_getElem, List.getElem_map, List.getElem_zipIdx, Nat.zero_add, Option.mem_def, List.length_zip,
    List.getElem_zip, List.getElem?_eq_some_iff]
  constructor
  · intro h i hi
    have hi' : i < items.length ∧ i < forms.length := by omega
    exact h i hi'.2 hi'.2 _ ⟨hi'.1, rfl⟩
  · rintro h i hi _ _ ⟨hitem, rfl⟩
    exact h i (by omega)

theorem recordOf_iff (forms : List (String × (Json → Prop))) (value : Json) :
    RecordOf forms value ↔ ∃ fields, fields? (forms.map (·.1)) value = some fields ∧
      List.Forall₂ (fun field form => ∀ value ∈ field, form.2 value) fields forms := by
  cases value with
  | object members =>
    simp only [RecordOf, fields?_object_eq_some_iff, and_assoc, exists_and_left, exists_eq_left',
      List.map_map, List.forall₂_map_left_iff, List.forall₂_same, List.forall_mem_map, Function.comp_def,
      ← forall_and]
    refine forall₂_congr fun form _ => and_congr_right fun hone => ?_
    exact (forall_mem_lookup_iff hone).symm
  | array items =>
    simp only [RecordOf, fields?_array_eq_some_iff, and_assoc, exists_and_left, exists_eq_left',
      forall₂_items_iff, List.length_map]
  | null | bool | number | string => simp [RecordOf, fields?]

end CallAtlas.Json
