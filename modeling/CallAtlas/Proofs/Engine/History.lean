import CallAtlas.Proofs.Engine.Run
import CallAtlas.Proofs.History

/-! Runs together with what has happened so far.

* `Reaches e ops e'`: the operations `ops` lead from `e` to `e'`.
* `run_history`: a property of the operations so far, their answers and the engine they lead to holds at the end of a
  run if one more operation keeps it.
* `Meets e R past op`: the operation behind `past` is as `R` says of the engine that it meets. -/

namespace CallAtlas.Engine

set_option autoImplicit false

variable {α : Type} [Scalar α]

/-! ## The last operation of a run -/

theorem run_append_eq_ok {e e' : Engine α} {first second : List (Operation α)} {replies : List (Reply α)} :
    e.run (first ++ second) = .ok (e', replies) ↔
      ∃ e₁ replies₁ replies₂, e.run first = .ok (e₁, replies₁) ∧ e₁.run second = .ok (e', replies₂) ∧
        replies = replies₁ ++ replies₂ := by
  constructor
  · intro h
    induction first generalizing e replies with
    | nil => exact ⟨e, [], replies, rfl, h, rfl⟩
    | cons op first ih =>
      rw [List.cons_append] at h
      obtain ⟨e₀, reply, rest, hop, hrest, rfl⟩ := run_cons_eq_ok.mp h
      obtain ⟨e₁, replies₁, replies₂, hfirst, hsecond, rfl⟩ := ih hrest
      exact ⟨e₁, reply :: replies₁, replies₂, run_cons_eq_ok.mpr ⟨e₀, reply, replies₁, hop, hfirst, rfl⟩, hsecond, rfl⟩
  · rintro ⟨e₁, replies₁, replies₂, hfirst, hsecond, rfl⟩
    exact run_append hfirst hsecond

theorem run_singleton_eq_ok {e e' : Engine α} {op : Operation α} {replies : List (Reply α)} :
    e.run [op] = .ok (e', replies) ↔ ∃ reply, e.step op = .ok (e', reply) ∧ replies = [reply] := by
  rw [run_cons_eq_ok]
  constructor
  · rintro ⟨e₁, reply, rest, hop, hrest, rfl⟩
    cases hrest
    exact ⟨reply, hop, rfl⟩
  · rintro ⟨reply, hop, rfl⟩
    exact ⟨e', reply, [], hop, rfl, rfl⟩

theorem changes_of_step {e e' : Engine α} {op : Operation α} {reply : Reply α} (he : e.viewport.InOrder)
    (hop : op.laysOut = false) (hstep : e.step op = .ok (e', reply)) : Changes e e' := by
  obtain ⟨e₁, reply₁, hstep₁, hchanges⟩ := e.step_changes he op hop
  rw [hstep] at hstep₁
  cases hstep₁
  exact hchanges

theorem step_inOrder {e e' : Engine α} {op : Operation α} {reply : Reply α} (he : e.viewport.InOrder)
    (hstep : e.step op = .ok (e', reply)) : e'.viewport.InOrder := by
  obtain ⟨e₁, replies, hrun, hmoves⟩ := run_moves [op] e he
  rw [run_singleton_eq_ok.mpr ⟨reply, hstep, rfl⟩] at hrun
  cases hrun
  exact preserved_along (·.viewport.InOrder) Move.inOrder hmoves he

/-- What one more operation keeps holds at the end of a run. -/
theorem run_history {e : Engine α} (P : List (Operation α) → List (Reply α) → Engine α → Prop) (hstart : P [] [] e)
    (hstep : ∀ {past : List (Operation α)} {replies : List (Reply α)} {e₁ e₂ : Engine α} {op : Operation α}
      {reply : Reply α}, e.run past = .ok (e₁, replies) → P past replies e₁ → e₁.step op = .ok (e₂, reply) →
      P (past ++ [op]) (replies ++ [reply]) e₂)
    {ops : List (Operation α)} {replies : List (Reply α)} {e' : Engine α} (hrun : e.run ops = .ok (e', replies)) :
    P ops replies e' := by
  induction ops using List.reverseRecOn generalizing replies e' with
  | nil =>
    cases hrun
    exact hstart
  | append_singleton past op ih =>
    obtain ⟨e₁, replies₁, replies₂, hpast, hlast, rfl⟩ := run_append_eq_ok.mp hrun
    obtain ⟨reply, hop, rfl⟩ := run_singleton_eq_ok.mp hlast
    exact hstep hpast (ih hpast) hop

/-! ## The engines that operations meet -/

/-- Operations that lead from one engine to another. -/
def Reaches (e : Engine α) (ops : List (Operation α)) (e' : Engine α) : Prop :=
  ∃ replies, e.run ops = .ok (e', replies)

theorem Reaches.unique {e e₁ e₂ : Engine α} {ops : List (Operation α)} (h₁ : e.Reaches ops e₁)
    (h₂ : e.Reaches ops e₂) : e₁ = e₂ := by
  obtain ⟨replies₁, hrun₁⟩ := h₁
  obtain ⟨replies₂, hrun₂⟩ := h₂
  rw [hrun₁] at hrun₂
  cases hrun₂
  rfl

/-- In a run from `e` the operation behind `past` is as `R` says, which is told the engine that it meets. -/
def Meets (e : Engine α) (R : List (Operation α) → Engine α → Operation α → Prop) (past : List (Operation α))
    (op : Operation α) : Prop :=
  ∃ met, e.Reaches past met ∧ R past met op

theorem meets_iff {e met : Engine α} {past : List (Operation α)} (hmet : e.Reaches past met)
    (R : List (Operation α) → Engine α → Operation α → Prop) (op : Operation α) :
    e.Meets R past op ↔ R past met op := by
  constructor
  · rintro ⟨met', hmet', h⟩
    cases hmet.unique hmet'
    exact h
  · exact fun h => ⟨met, hmet, h⟩

end CallAtlas.Engine
