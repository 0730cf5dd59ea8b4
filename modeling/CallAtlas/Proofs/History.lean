import Mathlib

/-! Runs of steps that can fail, and lists of what has happened.

* `foldlM_history`: a run of steps each of which returns and keeps a property returns and has it.
* `Since`: something has happened and was not undone. `since_append_singleton` says what one more event makes of
  that. -/

namespace CallAtlas

set_option autoImplicit false

/-- What one more step keeps, which is told all steps so far, holds at the end of a run, and the run returns. -/
theorem foldlM_history {σ ε φ : Type} (step : σ → ε → Except φ σ) {start : σ} (P : List ε → σ → Prop)
    (hstart : P [] start)
    (hstep : ∀ {past : List ε} {s : σ}, past.foldlM step start = .ok s → P past s →
      ∀ e, ∃ s', step s e = .ok s' ∧ P (past ++ [e]) s')
    (events : List ε) : ∃ s, events.foldlM step start = .ok s ∧ P events s := by
  induction events using List.reverseRecOn with
  | nil => exact ⟨start, rfl, hstart⟩
  | append_singleton past e ih =>
    obtain ⟨s, hpast, hP⟩ := ih
    obtain ⟨s', hlast, hP'⟩ := hstep hpast hP e
    refine ⟨s', ?_, hP'⟩
    rw [List.foldlM_append, hpast]
    simp [bind, Except.bind, hlast, pure, Except.pure]

/-- There was an event as `start` says, and none behind it is as `stop` says. Both are told the events before. -/
def Since {ε : Type} (start stop : List ε → ε → Prop) (events : List ε) : Prop :=
  ∃ before e after, events = before ++ e :: after ∧ start before e ∧
    ∀ between later rest, after = between ++ later :: rest → ¬ stop (before ++ e :: between) later

section

variable {ε : Type} (start stop : List ε → ε → Prop)

theorem not_since_nil : ¬ Since start stop [] := by
  rintro ⟨before, e, after, h, -⟩
  simp at h

/-- One more event starts something, or leaves it as it was unless it stops it. -/
theorem since_append_singleton (past : List ε) (last : ε) :
    Since start stop (past ++ [last]) ↔ start past last ∨ Since start stop past ∧ ¬ stop past last := by
  constructor
  · rintro ⟨before, e, after, h, he, hafter⟩
    rcases after.eq_nil_or_concat' with rfl | ⟨after, last', rfl⟩
    · obtain ⟨rfl, hlast⟩ := List.append_inj' h rfl
      rw [List.singleton_inj] at hlast
      exact Or.inl (hlast ▸ he)
    · rw [← List.cons_append, ← List.append_assoc] at h
      obtain ⟨rfl, hlast⟩ := List.append_inj' h rfl
      rw [List.singleton_inj] at hlast
      refine Or.inr ⟨⟨before, e, after, rfl, he, fun between later rest hrest => ?_⟩, ?_⟩
      · exact hafter between later (rest ++ [last']) (by simp [hrest])
      · exact hlast ▸ hafter after last' [] rfl
  · rintro (hstart | ⟨⟨before, e, after, rfl, he, hafter⟩, hlast⟩)
    · exact ⟨past, last, [], rfl, hstart, by simp⟩
    · refine ⟨before, e, after ++ [last], by simp, he, fun between later rest hrest => ?_⟩
      rcases rest.eq_nil_or_concat' with rfl | ⟨rest, last', rfl⟩
      · obtain ⟨rfl, hlater⟩ := List.append_inj' hrest rfl
        rw [List.singleton_inj] at hlater
        exact hlater ▸ hlast
      · rw [← List.cons_append, ← List.append_assoc] at hrest
        exact hafter between later rest (List.append_inj' hrest rfl).1

end

end CallAtlas
