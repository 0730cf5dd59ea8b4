import CallAtlas.Json.Reader
import CallAtlas.Proofs.Json.Forms
import CallAtlas.Proofs.Number.Magnitude

/-! Every number of a value that has been read is finite.

A significand has at most 64 bits. It is scaled down by powers of ten that are at least 1, which keeps it below `2 ^ 972`,
and scaled up once, where an overflow is refused. -/

namespace CallAtlas.Json

set_option autoImplicit false

open Binary64

/-! ## Numbers -/

theorem significandOf_le {start : Nat} (h : start ≤ maxSignificand) (digits : List Char) :
    (significandOf start digits).1 ≤ maxSignificand := by
  fun_induction significandOf start digits with
  | case1 start => exact h
  | case2 start c rest next hover => exact h
  | case3 start c rest next hfits ih => exact ih (Nat.le_of_not_lt hfits)

theorem below_significand {n : Nat} (h : n ≤ maxSignificand) : Below 67 n.toFloat := by
  apply below_toFloat
  unfold maxSignificand at h
  omega

theorem below_step {k : Int} (hk : 0 ≤ k) (hk' : k + 1 ≤ 972) {x : Float} (hx : Below k x) :
    Below (k + 1) (x / Float.ofScientific 1 false 308) := by
  -- The exponent is hidden, since at its value the power would be computed.
  generalize hn : 308 = n
  exact below_div hk hk' hx (atLeastOne_powerOfTen hn.ge)

/-- The bound grows by 1 with every step down. -/
theorem isFinite_scaleByTen {steps : Nat} {x y : Float} {exponent k : Int} (hk : 0 ≤ k) (hsteps : k + steps ≤ 971)
    (hx : Below k x) (h : scaleByTen steps x exponent = some y) : y.isFinite = true := by
  fun_induction scaleByTen steps x exponent generalizing k with
  | case1 steps x exponent hsmall power hup z => cases h
  | case2 steps x exponent hsmall power hup z =>
    next hinf =>
    obtain ⟨l, hl, hpower⟩ := (atLeastOne_powerOfTen hsmall).below
    rw [← Option.some.inj h]
    exact isFinite_mul hk hl hx hpower (by simpa using hinf)
  | case3 steps x exponent hsmall hdown =>
    rw [← Option.some.inj h]
    exact (below_div hk (by omega) hx (atLeastOne_powerOfTen hsmall)).isFinite
  | case4 steps x exponent hlarge hzero =>
    rw [← Option.some.inj h]
    exact hx.isFinite
  | case5 steps x exponent hlarge hzero hup => cases h
  | case6 x exponent hlarge hzero hdown =>
    rw [← Option.some.inj h]
    decide
  | case7 x exponent hlarge hzero hdown steps ih =>
    exact ih (by omega) (by omega) (below_step hk (by omega) hx) h

theorem isFinite_signed (negative : Bool) {x : Float} (h : x.isFinite = true) :
    (if negative = true then -x else x).isFinite = true := by
  split
  · exact isFinite_neg h
  · exact h

theorem isFinite_scaled {significand : Nat} (hsignificand : significand ≤ maxSignificand) {exponent : Int} {y : Float}
    (h : scaleByTen 8 significand.toFloat exponent = some y) : y.isFinite = true :=
  isFinite_scaleByTen (by decide) (by decide) (below_significand hsignificand) h

/-- The number of a text is finite: what is too large for a float is refused. -/
theorem isFinite_value {text : NumberText} {number : Number} (h : text.value = .ok number) :
    number.toFloat.isFinite = true := by
  have hwhole : (significandOf 0 text.whole).1 ≤ maxSignificand := significandOf_le (Nat.zero_le _) _
  have hsignificand := significandOf_le hwhole text.places
  unfold NumberText.value at h
  dsimp only at h
  generalize (significandOf 0 text.whole).1 = whole at *
  generalize (significandOf whole text.places).1 = significand at *
  split at h
  · split at h
    · split at h
      · cases h
        exact isFinite_neg (below_significand hwhole).isFinite
      · next hkept =>
        cases h
        have hpred : whole - 1 + 1 ≤ maxSignificand := by omega
        exact isFinite_neg (below_significand hpred).isFinite
    · cases h
      exact (below_significand hwhole).isFinite
  split at h
  · split at h
    · split at h
      · cases h
      · cases h
        exact isFinite_signed _ (by decide)
    · split at h
      · next hscaled =>
        cases h
        exact isFinite_signed _ (isFinite_scaled hsignificand hscaled)
      · cases h
  · split at h
    · next hscaled =>
      cases h
      exact isFinite_signed _ (isFinite_scaled hsignificand hscaled)
    · cases h

/-! ## Values -/

/-- Every number in the value is finite. -/
inductive Finite : Json → Prop
  | null : Finite .null
  | bool (b : Bool) : Finite (.bool b)
  | number {n : Number} (h : n.toFloat.isFinite = true) : Finite (.number n)
  | string (s : String) : Finite (.string s)
  | array {items : List Json} (h : ∀ item ∈ items, Finite item) : Finite (.array items)
  | object {members : List (String × Json)} (h : ∀ member ∈ members, Finite member.2) : Finite (.object members)

variable {s : List Char}

theorem map_eq_ok {τ υ : Type} {f : τ → υ} {result : Except ReadError τ} {y : υ} (h : result.map f = .ok y) :
    ∃ x, result = .ok x ∧ f x = y := by
  cases result with
  | error e => cases h
  | ok x => exact ⟨x, rfl, Except.ok.inj h⟩

theorem bind_eq_ok {τ υ : Type} {f : τ → Except ReadError υ} {result : Except ReadError τ} {y : υ}
    (h : (result >>= f) = .ok y) : ∃ x, result = .ok x ∧ f x = .ok y := by
  cases result with
  | error e => cases h
  | ok x => exact ⟨x, rfl, h⟩

theorem value_of_readWord {τ υ : Type} {value : υ} {letters : List Char} {t : Taken τ s} {taken : Taken υ s}
    (h : readWord value letters t = .ok taken) : taken.value = value := by
  fun_induction readWord value letters t with
  | case1 t =>
    cases h
    rfl
  | case2 letter letters t hnone => cases h
  | case3 letters t u hsome ih => exact ih h
  | case4 letter letters t u hsome hletter => cases h

theorem isFinite_readNumber {taken : Taken Number s} (h : readNumber s = .ok taken) :
    taken.value.toFloat.isFinite = true := by
  unfold readNumber at h
  obtain ⟨text, -, h⟩ := bind_eq_ok h
  obtain ⟨number, hnumber, h⟩ := bind_eq_ok h
  cases h
  exact isFinite_value hnumber

mutual

theorem readValue_finite (depth : Nat) (s : List Char) (taken : Taken Json s) (h : readValue depth s = .ok taken) :
    taken.value.Finite := by
  rw [readValue] at h
  split at h
  · cases h
  next t ht =>
  have := t.shorter
  split at h
  · obtain ⟨u, -, rfl⟩ := map_eq_ok h
    exact .string _
  split at h
  · cases depth with
    | zero => cases h
    | succ depth =>
      obtain ⟨u, hu, rfl⟩ := map_eq_ok h
      exact readArray_finite depth t.rest u hu
  split at h
  · cases depth with
    | zero => cases h
    | succ depth =>
      obtain ⟨u, hu, rfl⟩ := map_eq_ok h
      exact readObject_finite depth t.rest u hu
  split at h
  · rw [value_of_readWord h]
    exact .null
  split at h
  · rw [value_of_readWord h]
    exact .bool true
  split at h
  · rw [value_of_readWord h]
    exact .bool false
  split at h
  · obtain ⟨u, hu, rfl⟩ := map_eq_ok h
    exact .number (isFinite_readNumber hu)
  · cases h
termination_by (s.length, 0)

theorem readArray_finite (depth : Nat) (s : List Char) (taken : Taken Json s) (h : readArray depth s = .ok taken) :
    taken.value.Finite := by
  rw [readArray] at h
  split at h
  · cases h
  split at h
  · cases h
    exact .array (List.forall_mem_nil _)
  · obtain ⟨u, hu, rfl⟩ := map_eq_ok h
    exact .array (readItems_finite depth s u hu)
termination_by (s.length, 2)

theorem readItems_finite (depth : Nat) (s : List Char) (taken : Taken (List Json) s)
    (h : readItems depth s = .ok taken) : ∀ item ∈ taken.value, item.Finite := by
  rw [readItems] at h
  obtain ⟨item, hitem, h⟩ := bind_eq_ok h
  have hfirst := readValue_finite depth s item hitem
  have := item.shorter
  dsimp only at h
  split at h
  · cases h
  next t ht =>
  have := t.shorter
  split at h
  · split at h
    · cases h
    · obtain ⟨items, hitems, h⟩ := bind_eq_ok h
      cases h
      exact List.forall_mem_cons.mpr ⟨hfirst, readItems_finite depth t.rest items hitems⟩
  split at h
  · cases h
    exact List.forall_mem_singleton.mpr hfirst
  · cases h
termination_by (s.length, 1)

theorem readObject_finite (depth : Nat) (s : List Char) (taken : Taken Json s) (h : readObject depth s = .ok taken) :
    taken.value.Finite := by
  rw [readObject] at h
  split at h
  · cases h
  split at h
  · cases h
    exact .object (List.forall_mem_nil _)
  · obtain ⟨u, hu, rfl⟩ := map_eq_ok h
    exact .object (readMembers_finite depth s u hu)
termination_by (s.length, 2)

theorem readMembers_finite (depth : Nat) (s : List Char) (taken : Taken (List (String × Json)) s)
    (h : readMembers depth s = .ok taken) : ∀ member ∈ taken.value, member.2.Finite := by
  rw [readMembers] at h
  obtain ⟨name, hname, h⟩ := bind_eq_ok h
  have := name.shorter
  obtain ⟨value, hvalue, h⟩ := bind_eq_ok h
  have hfirst := readValue_finite depth name.rest value hvalue
  have := value.shorter
  dsimp only at h
  split at h
  · cases h
  next t ht =>
  have := t.shorter
  split at h
  · obtain ⟨members, hmembers, h⟩ := bind_eq_ok h
    cases h
    exact List.forall_mem_cons.mpr ⟨hfirst, readMembers_finite depth t.rest members hmembers⟩
  split at h
  · cases h
    exact List.forall_mem_singleton.mpr hfirst
  · cases h
termination_by (s.length, 1)

end

/-! ## Fields -/

theorem Finite.field {value : Json} (h : value.Finite) {names : List String} {fields : List (Option Json)}
    (hfields : fields? names value = some fields) {item : Json} (hitem : some item ∈ fields) : item.Finite := by
  cases h with
  | object hmembers =>
    obtain ⟨-, rfl⟩ := fields?_object_eq_some_iff.mp hfields
    obtain ⟨name, -, hlookup⟩ := List.mem_map.mp hitem
    obtain ⟨member, hmember, rfl⟩ := Option.map_eq_some_iff.mp hlookup
    exact hmembers member (List.mem_of_find?_eq_some hmember)
  | array hitems =>
    obtain ⟨-, rfl⟩ := fields?_array_eq_some_iff.mp hfields
    obtain ⟨entry, -, hget⟩ := List.mem_map.mp hitem
    exact hitems item (List.mem_of_getElem? hget)
  | null | bool | number | string => simp [fields?] at hfields

theorem Finite.float {field : Option Json} (h : ∀ item, field = some item → item.Finite) {found : Option Float}
    (hfound : orElse none (optional? float?) field = some found) : ∀ x ∈ found, x.isFinite = true := by
  intro x hx
  cases field with
  | none =>
    cases hfound
    cases hx
  | some item =>
    have hitem := h item rfl
    cases hitem with
    | null =>
      cases hfound
      cases hx
    | number hnumber =>
      cases hfound
      cases hx
      exact hnumber
    | bool | string | array | object => cases hfound

end CallAtlas.Json
