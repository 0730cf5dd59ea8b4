import CallAtlas.Proofs.Engine.Rows

/-! The ticks that `settle` runs, against the number it answers with.

`RunningTicks n` leads from a simulation and its model to what `n` ticks make of them, where each tick finds the
simulation running. `settle` counts the ticks after which the simulation still runs, so the tick that brings it to rest
is run and not counted (`settleFrom_of_runs`). -/

namespace CallAtlas

set_option autoImplicit false

variable {α : Type} [Scalar α]

namespace Simulation

/-- So many ticks, each of a running simulation, lead from one simulation and model to another. -/
inductive RunningTicks : ℕ → Simulation α × Model α → Simulation α × Model α → Prop
  | zero (p : Simulation α × Model α) : RunningTicks 0 p p
  | succ {n : ℕ} {p q : Simulation α × Model α} (hrunning : p.1.running = true)
      (hrest : RunningTicks n (p.1.tick p.2) q) : RunningTicks (n + 1) p q

/-- One tick more is a tick of a simulation that still runs. -/
theorem RunningTicks.running_of_succ {n : ℕ} {p q q' : Simulation α × Model α} (h : RunningTicks n p q)
    (hmore : RunningTicks (n + 1) p q') : q.1.running = true := by
  induction h with
  | zero p =>
    cases hmore with
    | succ hrunning hrest => exact hrunning
  | succ hrunning hrest ih =>
    cases hmore with
    | succ hrunning' hrest' => exact ih hrest'

theorem RunningTicks.not_fewer {n : ℕ} {p q : Simulation α × Model α} (h : RunningTicks (n + 1) p q)
    (hrests : q.1.running = false) : ¬ RunningTicks n p q := by
  intro hfewer
  exact absurd (hrests.symm.trans (hfewer.running_of_succ h)) Bool.false_ne_true

end Simulation

namespace Engine

open Simulation

omit [Scalar α] in
/-- The part of an engine that ticks change. -/
def moving (e : Engine α) : Simulation α × Model α := (e.simulation, e.model)

/-- From a running simulation, either all ticks are run and counted, or one more is run than counted and the simulation
rests after it. -/
theorem settleFrom_of_runs (count limit : ℕ) {e : Engine α} (hrunning : e.simulation.running = true) :
    ∃ e' r, settleFrom count limit e = (e', count + r) ∧
      (r = limit ∧ RunningTicks r e.moving e'.moving ∨
        r < limit ∧ RunningTicks (r + 1) e.moving e'.moving ∧ e'.simulation.running = false) := by
  induction limit generalizing count e with
  | zero => exact ⟨e, 0, rfl, Or.inl ⟨rfl, .zero _⟩⟩
  | succ limit ih =>
    rw [settleFrom]
    cases hticked : e.tick.simulation.running with
    | true =>
      obtain ⟨e', r, hsettle, hr⟩ := ih (count + 1) hticked
      refine ⟨e', r + 1, ?_, ?_⟩
      · rw [if_pos rfl, hsettle, Nat.add_right_comm, Nat.add_assoc]
      · rcases hr with ⟨hr, hticks⟩ | ⟨hr, hticks, hrests⟩
        · exact Or.inl ⟨congrArg (· + 1) hr, .succ hrunning hticks⟩
        · exact Or.inr ⟨Nat.succ_lt_succ hr, .succ hrunning hticks, hrests⟩
    | false =>
      refine ⟨e.tick, 0, ?_, Or.inr ⟨limit.succ_pos, .succ hrunning (.zero _), hticked⟩⟩
      rw [if_neg Bool.false_ne_true]
      rfl

/-- The answer of `settle` is at most the limit, and below it only if the simulation rests afterwards. It is the number
of running ticks if and only if the simulation rested before or the answer is the limit; otherwise one tick more was
run. -/
theorem settle_counts_ticks (limit : ℕ) (e : Engine α) :
    ∃ e' r, e.settle limit = (e', r) ∧ r ≤ limit ∧ (r = limit ∨ e'.simulation.running = false) ∧
      (RunningTicks r e.moving e'.moving ↔ e.simulation.running = false ∨ r = limit) ∧
      (e.simulation.running = true → r < limit → RunningTicks (r + 1) e.moving e'.moving) := by
  cases hrunning : e.simulation.running with
  | false =>
    refine ⟨e, 0, settle_of_rests hrunning limit, limit.zero_le, Or.inr hrunning, ?_, nofun⟩
    exact iff_of_true (.zero _) (Or.inl rfl)
  | true =>
    obtain ⟨e', r, hsettle, hr⟩ := settleFrom_of_runs 0 limit hrunning
    rw [Nat.zero_add] at hsettle
    refine ⟨e', r, hsettle, ?_⟩
    rcases hr with ⟨rfl, hticks⟩ | ⟨hr, hticks, hrests⟩
    · exact ⟨le_rfl, Or.inl rfl, iff_of_true hticks (Or.inr rfl), fun _ hlt => absurd hlt (lt_irrefl _)⟩
    · refine ⟨hr.le, Or.inr hrests, iff_of_false (hticks.not_fewer hrests) ?_, fun _ _ => hticks⟩
      rintro (h | h)
      · cases h
      · exact hr.ne h

/-- Settings with which the simulation cools down in one tick. -/
def coolingAtOnce : Settings Float32 :=
  { Settings.standard with simulation := { SimulationSettings.standard with alphaDecay := 1.0 } }

/-- The tick that brings the simulation to rest is run and not counted. -/
theorem settle_misses_last_tick :
    let e := (ofSettings coolingAtOnce).load ⟨[.ofId "a"], []⟩
    (e.settle 10).2 = 0 ∧ ¬ RunningTicks 0 e.moving (e.settle 10).1.moving ∧
      RunningTicks 1 e.moving (e.settle 10).1.moving := by
  intro e
  have hcount : (e.settle 10).2 = 0 := by decide +kernel
  obtain ⟨e', r, hsettle, hr⟩ := settleFrom_of_runs 0 10 (show e.simulation.running = true from rfl)
  rw [settle, hsettle, Nat.zero_add] at hcount
  subst hcount
  rw [settle, hsettle]
  obtain ⟨-, hticks, hrests⟩ := hr.resolve_left (fun h => absurd h.1 (by decide))
  exact ⟨rfl, hticks.not_fewer hrests, hticks⟩

end Engine

end CallAtlas
