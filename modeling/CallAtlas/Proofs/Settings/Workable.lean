import CallAtlas.Proofs.Json.Records
import CallAtlas.Proofs.Number.Narrowing
import CallAtlas.Proofs.Settings.Stability

/-! What can be relied on in settings that were loaded.

A text has no way to write a value that is not a number, so every setting is a number, and clamping then does put it
between its bounds. A number too large for binary32 is read as an infinite one, however. Clamping cuts it down, but a
setting that is only raised to its least value stays infinite, and so do a charge and an upper bound of the scale.
`Settings.NoneTooLarge` says when none of these is left. -/

namespace CallAtlas

set_option autoImplicit false

/-! ## Scalars among the settings -/

section

variable {α σ : Type}

/-- The setting has the property, if it is a scalar. -/
def Slot.Satisfies (P : α → Prop) (s : σ) : Slot α σ → Prop
  | .scalar _ get _ => P (get s)
  | .count _ _ _ => True
  | .text _ _ _ => True

/-- Entering a value keeps `Q`, for a scalar if it has the property `P`. -/
def Slot.Keeps (P : α → Prop) (Q : σ → Prop) : Slot α σ → Prop
  | .scalar _ _ set => ∀ s x, Q s → P x → Q (set s x)
  | .count _ _ set => ∀ s n, Q s → Q (set s n)
  | .text _ _ set => ∀ s id, Q s → Q (set s id)

/-- All scalars of a section have the property. -/
def Slot.AllOf (P : α → Prop) (slots : List (Slot α σ)) (s : σ) : Prop := ∀ slot ∈ slots, slot.Satisfies P s

/-- All scalars among the settings have the property. -/
structure Settings.Every (P : α → Prop) (s : Settings α) : Prop where
  simulation : Slot.AllOf P SimulationSettings.slots s.simulation
  layout : Slot.AllOf P LayoutSettings.slots s.layout
  viewport : Slot.AllOf P ViewportSettings.slots s.viewport
  minimap : Slot.AllOf P MinimapSettings.slots s.minimap

variable (P : α → Prop)

theorem SimulationSettings.allOf_slots : Slot.AllOf P SimulationSettings.slots = fun s =>
    P s.alphaMin ∧ P s.alphaDecay ∧ P s.velocityRetention ∧ P s.linkDistance ∧ P s.chargeStrength ∧ P s.theta ∧
      P s.collisionRadius ∧ P s.collisionStrength ∧ P s.centerStrength ∧ P s.dragAlphaTarget := by
  funext s
  simp [Slot.AllOf, slots, Slot.Satisfies]

theorem LayoutSettings.allOf_slots : Slot.AllOf P LayoutSettings.slots = fun s =>
    P s.treeBreadthSpacing ∧ P s.treeLevelSpacing ∧ P s.radialLinkDistance ∧ P s.radialRingSpacing ∧
      P s.radialStrength := by
  funext s
  simp [Slot.AllOf, slots, Slot.Satisfies]

theorem ViewportSettings.allOf_slots :
    Slot.AllOf P ViewportSettings.slots = fun s => P s.minScale ∧ P s.maxScale ∧ P s.width ∧ P s.height := by
  funext s
  simp [Slot.AllOf, slots, Slot.Satisfies]

theorem MinimapSettings.allOf_slots : Slot.AllOf P MinimapSettings.slots = fun s => P s.scale ∧ P s.markerRadius := by
  funext s
  simp [Slot.AllOf, slots, Slot.Satisfies]

/-! A scalar that is entered changes no other one. -/

theorem SimulationSettings.slots_keep :
    ∀ slot ∈ SimulationSettings.slots, Slot.Keeps P (Slot.AllOf P SimulationSettings.slots) slot := by
  rw [allOf_slots]
  simp only [slots, List.forall_mem_cons, Slot.Keeps]
  refine ⟨?_, ?_, ?_, ?_, ?_, ?_, ?_, ?_, ?_, ?_, ?_, ?_, List.forall_mem_nil _⟩
  all_goals
    rintro s x ⟨_, _, _, _, _, _, _, _, _, _⟩
    intros
    and_intros <;> assumption

theorem LayoutSettings.slots_keep :
    ∀ slot ∈ LayoutSettings.slots, Slot.Keeps P (Slot.AllOf P LayoutSettings.slots) slot := by
  rw [allOf_slots]
  simp only [slots, List.forall_mem_cons, Slot.Keeps]
  refine ⟨?_, ?_, ?_, ?_, ?_, ?_, List.forall_mem_nil _⟩
  all_goals
    rintro s x ⟨_, _, _, _, _⟩
    intros
    and_intros <;> assumption

theorem ViewportSettings.slots_keep :
    ∀ slot ∈ ViewportSettings.slots, Slot.Keeps P (Slot.AllOf P ViewportSettings.slots) slot := by
  rw [allOf_slots]
  simp only [slots, List.forall_mem_cons, Slot.Keeps]
  refine ⟨?_, ?_, ?_, ?_, List.forall_mem_nil _⟩
  all_goals
    rintro s x ⟨_, _, _, _⟩ hx
    and_intros <;> assumption

theorem MinimapSettings.slots_keep :
    ∀ slot ∈ MinimapSettings.slots, Slot.Keeps P (Slot.AllOf P MinimapSettings.slots) slot := by
  rw [allOf_slots]
  simp only [slots, List.forall_mem_cons, Slot.Keeps]
  refine ⟨?_, ?_, List.forall_mem_nil _⟩
  all_goals
    rintro s x ⟨_, _⟩ hx
    and_intros <;> assumption

end

/-! ## Reading -/

theorem Json.isNaN_readFloat32 (s : List Char) (taken : Taken Float32 s) (h : readFloat32 s = .ok taken) :
    taken.value.isNaN = false := by
  unfold readFloat32 readNumberAs at h
  split at h
  · obtain ⟨number, hnumber, h⟩ := bind_eq_ok h
    cases h
    exact isNaN_toFloat32 (isFinite_readNumber hnumber)
  · cases h

section

variable {σ : Type}

theorem Slot.field_keeps {Q : σ → Prop} {slot : Slot Float32 σ} (h : slot.Keeps (·.isNaN = false) Q) :
    slot.field.Keeps Q := by
  cases slot with
  | scalar name get set => exact Json.Field.keeps_of Json.isNaN_readFloat32 h
  | count name get set => exact Json.Field.keeps_of_enter h
  | text name get set => exact Json.Field.keeps_of_enter h

theorem allOf_of_readRecord {name : String} {slots : List (Slot Float32 σ)} {standard : σ}
    (hslots : ∀ slot ∈ slots, slot.Keeps (·.isNaN = false) (Slot.AllOf (·.isNaN = false) slots))
    (hstandard : Slot.AllOf (·.isNaN = false) slots standard) (s : List Char) (taken : Json.Taken σ s)
    (h : Json.readRecord name (slots.map Slot.field) standard s = .ok taken) :
    Slot.AllOf (·.isNaN = false) slots taken.value := by
  refine Json.readRecord_keeps (fun field hfield => ?_) hstandard s taken h
  obtain ⟨slot, hslot, rfl⟩ := List.mem_map.mp hfield
  exact slot.field_keeps (hslots slot hslot)

end

namespace Settings

theorem standard_every : Every (·.isNaN = false) (standard : Settings Float32) := by
  constructor
  · rw [SimulationSettings.allOf_slots]
    decide
  · rw [LayoutSettings.allOf_slots]
    decide
  · rw [ViewportSettings.allOf_slots]
    decide
  · rw [MinimapSettings.allOf_slots]
    decide

theorem fields_keep : ∀ field ∈ fields, field.Keeps (Every (·.isNaN = false)) := by
  simp only [fields, List.forall_mem_cons]
  refine ⟨?_, ?_, ?_, ?_, List.forall_mem_nil _⟩
  · exact Json.Field.keeps_of (allOf_of_readRecord (SimulationSettings.slots_keep _) standard_every.simulation)
      fun s part hs hpart => { hs with simulation := hpart }
  · exact Json.Field.keeps_of (allOf_of_readRecord (LayoutSettings.slots_keep _) standard_every.layout)
      fun s part hs hpart => { hs with layout := hpart }
  · exact Json.Field.keeps_of (allOf_of_readRecord (ViewportSettings.slots_keep _) standard_every.viewport)
      fun s part hs hpart => { hs with viewport := hpart }
  · exact Json.Field.keeps_of (allOf_of_readRecord (MinimapSettings.slots_keep _) standard_every.minimap)
      fun s part hs hpart => { hs with minimap := hpart }

/-- A text cannot ask for a setting that is not a number. -/
theorem every_of_parse {text : String} {asked : Settings Float32} (h : parse text = .ok asked) :
    asked.Every (·.isNaN = false) := by
  obtain ⟨taken, htaken, rfl⟩ := Json.readDocument_eq_ok h
  exact Json.readRecord_keeps fields_keep standard_every _ taken htaken

end Settings

/-! ## Finite settings -/

section

open Binary32 (isFinite_clamp isFinite_clamp_unit isFinite_larger_iff isFinite_of_le_of_le)

theorem SimulationSettings.sanitized_finite_iff {s : SimulationSettings Float32}
    (h : Slot.AllOf (·.isNaN = false) SimulationSettings.slots s) :
    Slot.AllOf (·.isFinite = true) SimulationSettings.slots s.sanitized ↔
      (s.linkDistance.isFinite = true ∨ s.linkDistance < 0.0) ∧ s.chargeStrength.isFinite = true ∧
        (s.collisionRadius.isFinite = true ∨ s.collisionRadius < 0.0) := by
  rw [allOf_slots] at h ⊢
  obtain ⟨halphaMin, halphaDecay, hretention, hlink, -, -, hradius, hcollision, hcenter, hdrag⟩ := h
  rw [← isFinite_larger_iff (y := 1.0) hlink (by decide), ← isFinite_larger_iff (y := 0.0) hradius (by decide)]
  constructor
  · rintro ⟨-, -, -, hdistance, hcharge, -, hspace, -⟩
    exact ⟨hdistance, hcharge, hspace⟩
  · rintro ⟨hdistance, hcharge, hspace⟩
    exact ⟨isFinite_clamp (by decide) (by decide) (by decide) halphaMin,
      isFinite_clamp (by decide) (by decide) (by decide) halphaDecay, isFinite_clamp_unit hretention, hdistance,
      hcharge, s.sanitized_theta.1, hspace, isFinite_clamp_unit hcollision, isFinite_clamp_unit hcenter,
      isFinite_clamp_unit hdrag⟩

theorem LayoutSettings.sanitized_finite_iff {s : LayoutSettings Float32}
    (h : Slot.AllOf (·.isNaN = false) LayoutSettings.slots s) :
    Slot.AllOf (·.isFinite = true) LayoutSettings.slots s.sanitized ↔
      (s.treeBreadthSpacing.isFinite = true ∨ s.treeBreadthSpacing < 0.0) ∧
        (s.treeLevelSpacing.isFinite = true ∨ s.treeLevelSpacing < 0.0) ∧
        (s.radialLinkDistance.isFinite = true ∨ s.radialLinkDistance < 0.0) ∧
        (s.radialRingSpacing.isFinite = true ∨ s.radialRingSpacing < 0.0) := by
  rw [allOf_slots] at h ⊢
  obtain ⟨hbreadth, hlevel, hlink, hring, hstrength⟩ := h
  rw [← isFinite_larger_iff (y := 1.0) hbreadth (by decide), ← isFinite_larger_iff (y := 1.0) hlevel (by decide),
    ← isFinite_larger_iff (y := 1.0) hlink (by decide), ← isFinite_larger_iff (y := 1.0) hring (by decide)]
  constructor
  · rintro ⟨hbreadth, hlevel, hlink, hring, -⟩
    exact ⟨hbreadth, hlevel, hlink, hring⟩
  · rintro ⟨hbreadth, hlevel, hlink, hring⟩
    exact ⟨hbreadth, hlevel, hlink, hring, isFinite_clamp_unit hstrength⟩

/-- A finite upper bound of the scale makes the lower one finite, unless both are replaced anyway. -/
theorem ViewportSettings.sanitized_finite_iff {s : ViewportSettings Float32}
    (h : Slot.AllOf (·.isNaN = false) ViewportSettings.slots s) :
    Slot.AllOf (·.isFinite = true) ViewportSettings.slots s.sanitized ↔
      (s.badBounds = true ∨ s.maxScale.isFinite = true) ∧ (s.width.isFinite = true ∨ s.width < 0.0) ∧
        (s.height.isFinite = true ∨ s.height < 0.0) := by
  rw [allOf_slots] at h ⊢
  obtain ⟨-, -, hwidth, hheight⟩ := h
  rw [← isFinite_larger_iff (y := 1.0) hwidth (by decide), ← isFinite_larger_iff (y := 1.0) hheight (by decide)]
  by_cases hbad : s.badBounds = true
  · simp only [sanitized, hbad, if_true, true_or, true_and]
    exact ⟨fun hall => hall.2.2, fun hsize => ⟨by decide, by decide, hsize⟩⟩
  · have hbounds := bounds_of_not_badBounds hbad
    have hlower : s.maxScale.isFinite = true → s.minScale.isFinite = true := fun hmax =>
      isFinite_of_le_of_le (by decide) hmax (Binary32.le_of_lt hbounds.1) hbounds.2
    simp only [sanitized, hbad, if_false, Bool.false_eq_true, false_or]
    exact ⟨fun hall => hall.2, fun hsize => ⟨hlower hsize.1, hsize⟩⟩

theorem MinimapSettings.sanitized_finite_iff {s : MinimapSettings Float32}
    (h : Slot.AllOf (·.isNaN = false) MinimapSettings.slots s) :
    Slot.AllOf (·.isFinite = true) MinimapSettings.slots s.sanitized ↔
      (s.markerRadius.isFinite = true ∨ s.markerRadius < 0.0) := by
  rw [allOf_slots] at h ⊢
  rw [← isFinite_larger_iff (y := 0.5) h.2 (by decide)]
  exact and_iff_right (isFinite_clamp (by decide) (by decide) (by decide) h.1)

end

namespace Settings

open Binary32 (clamp_mem isNaN_of_le isNaN_of_isFinite)

/-- The settings that sanitizing raises to a least value and does not bound from above. -/
def raised {α : Type} (s : Settings α) : List α :=
  [s.simulation.linkDistance, s.simulation.collisionRadius, s.layout.treeBreadthSpacing, s.layout.treeLevelSpacing,
    s.layout.radialLinkDistance, s.layout.radialRingSpacing, s.viewport.width, s.viewport.height,
    s.minimap.markerRadius]

/-- None of the settings that sanitizing would leave infinite is. Scale bounds that it replaces may be. -/
@[mk_iff]
structure NoneTooLarge (s : Settings Float32) : Prop where
  raised : ∀ x ∈ s.raised, x.isFinite = true ∨ x < 0.0
  charge : s.simulation.chargeStrength.isFinite = true
  scales : s.viewport.badBounds = true ∨ s.viewport.maxScale.isFinite = true

instance (s : Settings Float32) : Decidable s.NoneTooLarge := decidable_of_iff' _ (noneTooLarge_iff s)

theorem sanitized_finite_iff {s : Settings Float32} (h : s.Every (·.isNaN = false)) :
    s.sanitized.Every (·.isFinite = true) ↔ s.NoneTooLarge := by
  have hsimulation := SimulationSettings.sanitized_finite_iff h.simulation
  have hlayout := LayoutSettings.sanitized_finite_iff h.layout
  have hviewport := ViewportSettings.sanitized_finite_iff h.viewport
  have hminimap := MinimapSettings.sanitized_finite_iff h.minimap
  constructor
  · intro hall
    obtain ⟨hlink, hcharge, hradius⟩ := hsimulation.mp hall.simulation
    obtain ⟨hbreadth, hlevel, hradial, hring⟩ := hlayout.mp hall.layout
    obtain ⟨hscales, hwidth, hheight⟩ := hviewport.mp hall.viewport
    have hmarker := hminimap.mp hall.minimap
    refine ⟨?_, hcharge, hscales⟩
    simp only [raised, List.forall_mem_cons]
    exact ⟨hlink, hradius, hbreadth, hlevel, hradial, hring, hwidth, hheight, hmarker, List.forall_mem_nil _⟩
  · rintro ⟨hraised, hcharge, hscales⟩
    simp only [raised, List.forall_mem_cons] at hraised
    obtain ⟨hlink, hradius, hbreadth, hlevel, hradial, hring, hwidth, hheight, hmarker, -⟩ := hraised
    exact ⟨hsimulation.mpr ⟨hlink, hcharge, hradius⟩, hlayout.mpr ⟨hbreadth, hlevel, hradial, hring⟩,
      hviewport.mpr ⟨hscales, hwidth, hheight⟩, hminimap.mpr hmarker⟩

/-! ## Loading -/

/-- The settings that are clamped are numbers between their bounds. -/
structure Bounded (s : Settings Float32) : Prop where
  alphaMin : 1e-6 ≤ s.simulation.alphaMin ∧ s.simulation.alphaMin ≤ 0.5
  alphaDecay : 1e-4 ≤ s.simulation.alphaDecay ∧ s.simulation.alphaDecay ≤ 1.0
  velocityRetention : 0.0 ≤ s.simulation.velocityRetention ∧ s.simulation.velocityRetention ≤ 1.0
  collisionStrength : 0.0 ≤ s.simulation.collisionStrength ∧ s.simulation.collisionStrength ≤ 1.0
  centerStrength : 0.0 ≤ s.simulation.centerStrength ∧ s.simulation.centerStrength ≤ 1.0
  dragAlphaTarget : 0.0 ≤ s.simulation.dragAlphaTarget ∧ s.simulation.dragAlphaTarget ≤ 1.0
  radialStrength : 0.0 ≤ s.layout.radialStrength ∧ s.layout.radialStrength ≤ 1.0
  minimapScale : 0.01 ≤ s.minimap.scale ∧ s.minimap.scale ≤ 1.0

theorem sanitized_bounded {s : Settings Float32} (h : s.Every (·.isNaN = false)) : s.sanitized.Bounded := by
  have hsimulation := h.simulation
  have hlayout := h.layout
  have hminimap := h.minimap
  rw [SimulationSettings.allOf_slots] at hsimulation
  rw [LayoutSettings.allOf_slots] at hlayout
  rw [MinimapSettings.allOf_slots] at hminimap
  obtain ⟨halphaMin, halphaDecay, hretention, -, -, -, -, hcollision, hcenter, hdrag⟩ := hsimulation
  obtain ⟨-, -, -, -, hradial⟩ := hlayout
  constructor
  · exact clamp_mem (by decide) halphaMin
  · exact clamp_mem (by decide) halphaDecay
  · exact clamp_mem (by decide) hretention
  · exact clamp_mem (by decide) hcollision
  · exact clamp_mem (by decide) hcenter
  · exact clamp_mem (by decide) hdrag
  · exact clamp_mem (by decide) hradial
  · exact clamp_mem (by decide) hminimap.1

/-- A setting with a range to lie in is a number. The charge has no range. -/
theorem every_of_repaired {s : Settings Float32} (hrepaired : s.Repaired) (hbounded : s.Bounded)
    (hcharge : s.simulation.chargeStrength.isNaN = false) : s.Every (·.isNaN = false) := by
  constructor
  · rw [SimulationSettings.allOf_slots]
    exact ⟨isNaN_of_le hbounded.alphaMin.1, isNaN_of_le hbounded.alphaDecay.1,
      isNaN_of_le hbounded.velocityRetention.1, isNaN_of_le hrepaired.linkDistance, hcharge,
      isNaN_of_isFinite hrepaired.theta.1, isNaN_of_le hrepaired.collisionRadius,
      isNaN_of_le hbounded.collisionStrength.1, isNaN_of_le hbounded.centerStrength.1,
      isNaN_of_le hbounded.dragAlphaTarget.1⟩
  · rw [LayoutSettings.allOf_slots]
    exact ⟨isNaN_of_le hrepaired.treeBreadthSpacing, isNaN_of_le hrepaired.treeLevelSpacing,
      isNaN_of_le hrepaired.radialLinkDistance, isNaN_of_le hrepaired.radialRingSpacing,
      isNaN_of_le hbounded.radialStrength.1⟩
  · rw [ViewportSettings.allOf_slots]
    exact ⟨isNaN_of_le (Binary32.le_of_lt hrepaired.scales.1), isNaN_of_le hrepaired.scales.2,
      isNaN_of_le hrepaired.width, isNaN_of_le hrepaired.height⟩
  · rw [MinimapSettings.allOf_slots]
    exact ⟨isNaN_of_le hbounded.minimapScale.1, isNaN_of_le hrepaired.markerRadius⟩

theorem textOf_toUTF8 (text : String) : textOf (some text.toUTF8) = .ok text := by
  simp only [textOf, String.fromUTF8?]
  rw [dif_pos (show text.toUTF8.IsValidUTF8 from text.isValidUTF8)]
  rfl

/-- Loaded settings lie in the ranges that sanitizing aims at, the clamped ones between both bounds, and all scalars are
numbers. All of them are finite exactly if the text asks for nothing too large. -/
theorem load_in_range {path : String} {bytes : Option ByteArray} {s : Settings Float32} (h : load path bytes = .ok s) :
    s.Repaired ∧ s.Bounded ∧ s.Every (·.isNaN = false) ∧
      ∃ text asked, textOf bytes = .ok text ∧ parse text = .ok asked ∧ asked.sanitized = s ∧
        (s.Every (·.isFinite = true) ↔ asked.NoneTooLarge) := by
  obtain ⟨text, asked, htext, hasked, rfl⟩ := load_eq_ok_iff.mp h
  have hnumbers := every_of_parse hasked
  have hsimulation := hnumbers.simulation
  rw [SimulationSettings.allOf_slots] at hsimulation
  obtain ⟨-, -, -, -, hcharge, -⟩ := hsimulation
  have hrepaired := asked.sanitized_repaired
  have hbounded := sanitized_bounded hnumbers
  exact ⟨hrepaired, hbounded, every_of_repaired hrepaired hbounded hcharge, text, asked, htext, hasked, rfl,
    sanitized_finite_iff hnumbers⟩

/-- Five settings that are too large for binary32, each of which is cut down or replaced. -/
def tamedText : String :=
  "\x7b\"simulation\":\x7b\"alpha_min\":1e39,\"link_distance\":-1e39,\"theta\":1e39\x7d," ++
    "\"viewport\":\x7b\"min_scale\":1e39,\"max_scale\":-1e39\x7d\x7d"

theorem load_tamedText_in_range :
    ∃ s, load "config.json" (some tamedText.toUTF8) = .ok s ∧ s.Repaired ∧ s.Bounded ∧ s.Every (·.isNaN = false) ∧
      s.Every (·.isFinite = true) := by
  have hasked : (parse tamedText).toOption.map (fun asked => decide asked.NoneTooLarge) = some true := by
    decide +kernel
  cases hparse : parse tamedText with
  | error e =>
    rw [hparse] at hasked
    cases hasked
  | ok asked =>
    have h : load "config.json" (some tamedText.toUTF8) = .ok asked.sanitized :=
      load_eq_ok_iff.mpr ⟨tamedText, asked, textOf_toUTF8 _, hparse, rfl⟩
    obtain ⟨hrepaired, hbounded, hnumbers, text, asked', htext, hparse', -, hfinite⟩ := load_in_range h
    cases htext.symm.trans (textOf_toUTF8 _)
    cases hparse'.symm.trans hparse
    rw [hparse] at hasked
    exact ⟨_, h, hrepaired, hbounded, hnumbers, hfinite.mpr (of_decide_eq_true (Option.some.inj hasked))⟩

def longLinkText : String := "\x7b\"simulation\":\x7b\"link_distance\":1e39\x7d\x7d"

/-- The distance is only raised to its least value, so it stays infinite. -/
theorem load_leaves_infinite_distance :
    ∃ s, load "config.json" (some longLinkText.toUTF8) = .ok s ∧
      s.simulation.linkDistance.isFinite = false := by
  have hload : (load "config.json" (some longLinkText.toUTF8)).toOption.map
      (fun s => s.simulation.linkDistance.isFinite) = some false := by
    decide +kernel
  cases h : load "config.json" (some longLinkText.toUTF8) with
  | error e =>
    rw [h] at hload
    cases hload
  | ok s =>
    rw [h] at hload
    exact ⟨s, rfl, Option.some.inj hload⟩

end Settings

end CallAtlas
