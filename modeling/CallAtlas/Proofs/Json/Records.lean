import CallAtlas.Json.Record
import CallAtlas.Proofs.Json.Finite

/-! What holds of a record through all of its fields.

A record is read field by field over the values it starts with. What holds of those, and is kept by each field that is
read into it, holds of the record in the end, whether it is written as an object or as an array. -/

namespace CallAtlas.Json

set_option autoImplicit false

variable {σ : Type} {P : σ → Prop}

/-- Reading the field into a record with the property gives one with the property. -/
def Field.Keeps (P : σ → Prop) (field : Field σ) : Prop :=
  ∀ record s (taken : Taken σ s), P record → field.read record s = .ok taken → P taken.value

theorem Field.keeps_of {τ : Type} {Q : τ → Prop} {name : String} {read : Reader τ} {enter : σ → τ → σ}
    (hread : ∀ s (taken : Taken τ s), read s = .ok taken → Q taken.value)
    (henter : ∀ record value, P record → Q value → P (enter record value)) : (Field.of name read enter).Keeps P := by
  intro record s taken hrecord h
  obtain ⟨t, ht, rfl⟩ := map_eq_ok h
  exact henter record t.value hrecord (hread s t ht)

theorem Field.keeps_of_enter {τ : Type} {name : String} {read : Reader τ} {enter : σ → τ → σ}
    (henter : ∀ record value, P record → P (enter record value)) : (Field.of name read enter).Keeps P :=
  keeps_of (Q := fun _ => True) (fun _ _ _ => trivial) fun record value hrecord _ => henter record value hrecord

theorem readFields_keeps {fields : List (Field σ)} (hfields : ∀ field ∈ fields, field.Keeps P) (seen : List String)
    (record : σ) (s : List Char) (taken : Taken σ s) (hrecord : P record)
    (h : readFields fields seen record s = .ok taken) : P taken.value := by
  rw [readFields] at h
  obtain ⟨key, -, h⟩ := bind_eq_ok h
  have := key.shorter
  dsimp only at h
  split at h
  case' h_1 field hfield =>
    split at h
    · cases h
    obtain ⟨colon, -, h⟩ := bind_eq_ok h
    obtain ⟨value, hvalue, h⟩ := bind_eq_ok h
    have hkept : P value.value := by
      obtain ⟨t, ht, rfl⟩ := map_eq_ok hvalue
      exact hfields field (List.mem_of_find?_eq_some hfield) record _ t hrecord ht
  case' h_2 =>
    obtain ⟨colon, -, h⟩ := bind_eq_ok h
    obtain ⟨value, hvalue, h⟩ := bind_eq_ok h
    have hkept : P value.value := by
      obtain ⟨t, -, rfl⟩ := map_eq_ok hvalue
      exact hrecord
  -- Whichever way the value was read, the members behind it are read in one way.
  all_goals
    have := value.shorter
    split at h
    · cases h
    next t ht =>
    have := t.shorter
    split at h
    · obtain ⟨u, hu, rfl⟩ := map_eq_ok h
      exact readFields_keeps hfields _ _ _ u hkept hu
    split at h
    · cases h
      exact hkept
    · cases h
termination_by s.length

theorem readPositions_keeps {fields : List (Field σ)} (hfields : ∀ field ∈ fields, field.Keeps P) (first : Bool)
    (record : σ) (s : List Char) (taken : Taken σ s) (hrecord : P record)
    (h : readPositions fields first record s = .ok taken) : P taken.value := by
  induction fields generalizing first record s with
  | nil =>
    rw [readPositions] at h
    obtain ⟨t, -, rfl⟩ := map_eq_ok h
    exact hrecord
  | cons field fields ih =>
    have hfield := hfields field List.mem_cons_self record
    have hmore : ∀ f ∈ fields, f.Keeps P := fun f hf => hfields f (List.mem_cons_of_mem field hf)
    rw [readPositions] at h
    split at h
    · cases h
    split at h
    · cases h
      exact hrecord
    split at h
    · obtain ⟨value, hvalue, h⟩ := bind_eq_ok h
      obtain ⟨u, hu, rfl⟩ := map_eq_ok h
      exact ih hmore false _ _ u (hfield _ value hrecord hvalue) hu
    split at h
    · split at h
      · cases h
      split at h
      · cases h
      · obtain ⟨value, hvalue, h⟩ := bind_eq_ok h
        obtain ⟨u, hu, rfl⟩ := map_eq_ok h
        exact ih hmore false _ _ u (hfield _ value hrecord hvalue) hu
    · cases h

theorem readRecord_keeps {name : String} {fields : List (Field σ)} (hfields : ∀ field ∈ fields, field.Keeps P)
    {record : σ} (hrecord : P record) (s : List Char) (taken : Taken σ s)
    (h : readRecord name fields record s = .ok taken) : P taken.value := by
  unfold readRecord at h
  split at h
  · cases h
  split at h
  · split at h
    · cases h
    split at h
    · cases h
      exact hrecord
    · obtain ⟨u, hu, rfl⟩ := map_eq_ok h
      exact readFields_keeps hfields _ _ _ u hrecord hu
  split at h
  · obtain ⟨u, hu, rfl⟩ := map_eq_ok h
    exact readPositions_keeps hfields _ _ _ u hrecord hu
  · cases h

theorem readDocument_eq_ok {τ : Type} {read : Reader τ} {text : String} {value : τ}
    (h : readDocument read text = .ok value) :
    ∃ taken : Taken τ text.toList, read text.toList = .ok taken ∧ taken.value = value := by
  obtain ⟨taken, htaken, h⟩ := bind_eq_ok h
  obtain ⟨-, -, h⟩ := bind_eq_ok h
  exact ⟨taken, htaken, Except.ok.inj h⟩

end CallAtlas.Json
