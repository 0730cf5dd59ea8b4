import Mathlib
import CallAtlas.Proofs.Engine.Temperature

/-! Once nothing is held, the simulation comes to rest, without rounding.

With a target of 0 a tick multiplies the temperature by `1 - decay` (`CoolingFrom.tick`), whatever the forces do to the
nodes. Sanitized settings bound the decay and the least temperature away from 0, so some power falls below the least
temperature (`exists_cold`). A simulation that rests stays so until it is told to restart (`obey_rests`). -/

namespace CallAtlas.Simulation

set_option autoImplicit false

open Scalar

variable {α : Type} [Scalar α] {ι : ℝ → α} {k : Thermostat}

/-! ## Ticks one after the other -/

def ticked (p : Simulation α × Model α) : Simulation α × Model α := p.1.tick p.2

theorem ticked_of_rests {p : Simulation α × Model α} (h : p.1.running = false) : ticked p = p :=
  tick_of_rests h p.2

theorem iterate_ticked_of_rests {p : Simulation α × Model α} {n j : ℕ} (h : (ticked^[n] p).1.running = false)
    (hj : n ≤ j) : ticked^[j] p = ticked^[n] p := by
  obtain ⟨i, rfl⟩ := Nat.exists_eq_add_of_le' hj
  rw [Function.iterate_add_apply]
  exact Function.iterate_fixed (ticked_of_rests h) i

/-! ## Cooling -/

/-- The temperature is `a` and falls toward 0. -/
structure CoolingFrom (ι : ℝ → α) (k : Thermostat) (a : ℝ) (s : Simulation α) : Prop extends s.Regulated ι k where
  temperature : s.alpha = ι a
  target : s.alphaTarget = ι 0

theorem CoolingFrom.tick (hι : Exact ι) {a : ℝ} {s : Simulation α} (h : s.CoolingFrom ι k a)
    (hrunning : s.running = true) (m : Model α) :
    (s.tick m).1.CoolingFrom ι k (a * (1 - k.decay)) ∧
      ((s.tick m).1.running = true ↔ k.least ≤ a * (1 - k.decay)) := by
  obtain ⟨halpha, hruns⟩ := tick_alpha hι h.toRegulated m h.temperature h.target hrunning
  rw [show a + (0 - a) * k.decay = a * (1 - k.decay) by ring] at halpha hruns
  refine ⟨⟨tick_regulated hι h.toRegulated m, halpha, ?_⟩, ?_⟩
  · rw [tick_alphaTarget, h.target]
  · rw [hruns, Bool.not_eq_true', decide_eq_false_iff_not, hι.lt_iff, not_lt]

/-- As long as it has not been too cold after any tick, the simulation runs. -/
theorem CoolingFrom.iterate (hι : Exact ι) {a : ℝ} {s : Simulation α} (h : s.CoolingFrom ι k a)
    (hrunning : s.running = true) (m : Model α) (n : ℕ)
    (hwarm : ∀ j, 1 ≤ j → j ≤ n → k.least ≤ a * (1 - k.decay) ^ j) :
    (ticked^[n] (s, m)).1.CoolingFrom ι k (a * (1 - k.decay) ^ n) ∧ (ticked^[n] (s, m)).1.running = true := by
  induction n with
  | zero => simpa using ⟨h, hrunning⟩
  | succ n ih =>
    obtain ⟨hcooling, hruns⟩ := ih fun j hj hjn => hwarm j hj (by omega)
    obtain ⟨hticked, hruns'⟩ := hcooling.tick hι hruns (ticked^[n] (s, m)).2
    rw [mul_assoc, ← pow_succ] at hticked hruns'
    rw [Function.iterate_succ_apply']
    exact ⟨hticked, hruns'.mpr (hwarm (n + 1) (by omega) le_rfl)⟩

/-- The numbers of ticks after which a temperature is too low. -/
def coldAfter (a decay least : ℝ) : Set ℕ := {n | 1 ≤ n ∧ a * (1 - decay) ^ n < least}

theorem exists_cold {a decay least : ℝ} (ha : a ∈ Set.Icc (0 : ℝ) 1) (hdecay : decay ∈ Set.Ioc (0 : ℝ) 1)
    (hleast : 0 < least) : (coldAfter a decay least).Nonempty := by
  have hfactor : 0 ≤ 1 - decay := sub_nonneg.mpr hdecay.2
  have hfactor' : 1 - decay < 1 := sub_lt_self 1 hdecay.1
  obtain ⟨n, hn⟩ := exists_pow_lt_of_lt_one hleast hfactor'
  refine ⟨n + 1, by omega, ?_⟩
  calc a * (1 - decay) ^ (n + 1) ≤ 1 * (1 - decay) ^ (n + 1) := by gcongr; exact ha.2
    _ ≤ (1 - decay) ^ n := by rw [one_mul]; exact pow_le_pow_of_le_one hfactor hfactor'.le n.le_succ
    _ < least := hn

theorem CoolingFrom.runs_iff (hι : Exact ι) {a : ℝ} {s : Simulation α} (h : s.CoolingFrom ι k a)
    (hrunning : s.running = true) (m : Model α) {n : ℕ} (hn : IsLeast (coldAfter a k.decay k.least) n) (j : ℕ) :
    (ticked^[j] (s, m)).1.running = true ↔ j < n := by
  have hwarm : ∀ i, 1 ≤ i → i < n → k.least ≤ a * (1 - k.decay) ^ i := fun i hi hin =>
    not_lt.mp fun hcold => absurd (hn.2 ⟨hi, hcold⟩) (by omega)
  have hrests : (ticked^[n] (s, m)).1.running = false := by
    obtain ⟨hpos, hcold⟩ := hn.1
    obtain ⟨i, rfl⟩ := Nat.exists_eq_add_of_le' hpos
    obtain ⟨hcooling, hruns⟩ := h.iterate hι hrunning m i fun j hj hji => hwarm j hj (by omega)
    have hlast := (hcooling.tick hι hruns (ticked^[i] (s, m)).2).2
    rw [mul_assoc, ← pow_succ] at hlast
    rw [Function.iterate_succ_apply', ← Bool.not_eq_true]
    exact mt hlast.mp (not_le.mpr hcold)
  constructor
  · intro hruns
    by_contra hle
    rw [iterate_ticked_of_rests hrests (not_lt.mp hle), hrests] at hruns
    cases hruns
  · intro hlt
    exact (h.iterate hι hrunning m j fun i hi hij => hwarm i hi (by omega)).2

/-! ## Rest -/

/-- What can be done to a simulation and its model. -/
inductive Command (α : Type) where
  | tick
  | setAlphaTarget (target : α)
  | setForces (forces : ForceSet α)
  | retarget (center : Vec α)
  | stop
  | restart (alpha : α)
  | setModel (m : Model α)

def obey (p : Simulation α × Model α) : Command α → Simulation α × Model α
  | .tick => p.1.tick p.2
  | .setAlphaTarget target => (p.1.setAlphaTarget target, p.2)
  | .setForces forces => (p.1.setForces forces, p.2)
  | .retarget center => (p.1.retarget center, p.2)
  | .stop => (p.1.stop, p.2)
  | .restart alpha => (p.1.restart alpha, p.2)
  | .setModel m => (p.1, m)

theorem obey_rests {p : Simulation α × Model α} (h : p.1.running = false) (c : Command α)
    (hc : ∀ alpha, c ≠ .restart alpha) : (obey p c).1.running = false := by
  cases c with
  | tick => exact tick_running p.1 p.2 h
  | restart alpha => exact absurd rfl (hc alpha)
  | stop => rfl
  | setAlphaTarget | setForces | retarget | setModel => exact h

theorem foldl_obey_rests {p : Simulation α × Model α} (h : p.1.running = false) (commands : List (Command α))
    (hcommands : ∀ alpha, .restart alpha ∉ commands) : (commands.foldl obey p).1.running = false := by
  induction commands generalizing p with
  | nil => exact h
  | cons c rest ih =>
    refine ih (obey_rests h c fun alpha hc => ?_) fun alpha hmem => ?_
    · exact hcommands alpha (hc ▸ List.mem_cons_self)
    · exact hcommands alpha (List.mem_cons_of_mem c hmem)

/-- Without rounding, a simulation with a target of 0 rests after the least number of ticks that cool its temperature
below the least one, and there is such a number. From then on, until it is told to restart, a tick changes nothing and
leaves it at rest. -/
theorem ticks_come_to_rest (hι : Exact ι) (settings : SimulationSettings α) (hleast : isNaN settings.alphaMin = false)
    (hdecay : isNaN settings.alphaDecay = false) (s : Simulation α) (hmin : s.alphaMin = settings.sanitized.alphaMin)
    (hrate : s.alphaDecay = settings.sanitized.alphaDecay) (htarget : s.alphaTarget = 0.0) {a : ℝ}
    (ha : a ∈ Set.Icc (0 : ℝ) 1) (halpha : s.alpha = ι a) (hrunning : s.running = true) (m : Model α) :
    ∃ least decay : ℝ, s.alphaMin = ι least ∧ s.alphaDecay = ι decay ∧
      ∃ n, IsLeast {n | 1 ≤ n ∧ a * (1 - decay) ^ n < least} n ∧
        (∀ j, (ticked^[j] (s, m)).1.running = true ↔ j < n) ∧
        ∀ commands : List (Command α), (∀ alpha, .restart alpha ∉ commands) →
          (ticked (commands.foldl obey (ticked^[n] (s, m)))).1.running = false ∧
          ticked (commands.foldl obey (ticked^[n] (s, m))) = commands.foldl obey (ticked^[n] (s, m)) := by
  obtain ⟨least, hleast_mem, hleast⟩ := SimulationSettings.sanitized_alphaMin hι hleast
  obtain ⟨decay, hdecay_mem, hdecay⟩ := SimulationSettings.sanitized_alphaDecay hι hdecay
  have hleast_pos : 0 < least := lt_of_lt_of_le (by norm_num) hleast_mem.1
  have hdecay_pos : 0 < decay := lt_of_lt_of_le (by norm_num) hdecay_mem.1
  have hdecay_le : decay ≤ 1 := hdecay_mem.2.trans (by norm_num)
  -- What a drag would aim at does not matter here.
  let k : Thermostat :=
    { least, decay, drag := 0
      least_mem := Set.Icc_subset_Icc (by norm_num) (by norm_num) hleast_mem
      decay_mem := ⟨hdecay_pos.le, hdecay_le⟩
      drag_mem := by simp }
  have hcooling : s.CoolingFrom ι k a :=
    { alpha := ⟨a, ha, halpha⟩
      alphaTarget := ⟨0, by simp, htarget.trans hι.zero⟩
      alphaMin := hmin.trans hleast
      alphaDecay := hrate.trans hdecay
      temperature := halpha
      target := htarget.trans hι.zero }
  have hcold := exists_cold ha ⟨hdecay_pos, hdecay_le⟩ hleast_pos
  have hn := isLeast_csInf hcold
  have hruns := hcooling.runs_iff hι hrunning m hn
  refine ⟨least, decay, hcooling.alphaMin, hcooling.alphaDecay, _, hn, hruns, fun commands hcommands => ?_⟩
  have hrests : (ticked^[sInf (coldAfter a decay least)] (s, m)).1.running = false := by
    rw [← Bool.not_eq_true]
    exact mt (hruns _).mp (lt_irrefl _)
  have hstill := foldl_obey_rests hrests commands hcommands
  rw [ticked_of_rests hstill]
  exact ⟨hstill, rfl⟩

/-- Half the temperature is above the least one and a quarter is below it, so the second tick is the last that moves
two linked nodes. -/
theorem halving_rests_after_two :
    let settings : SimulationSettings ℝ := { SimulationSettings.standard with alphaMin := 0.3, alphaDecay := 0.5 }
    let forces : ForceSet ℝ := { ForceSet.none with link := some ⟨100⟩, charge := some ⟨-300, 0.9⟩ }
    let s := ((ofSettings settings.sanitized).setForces forces).restart 1
    let m : Model ℝ := (Model.ofGraph (.ofSpec ⟨[.ofId "a", .ofId "b"], [⟨"a", "b"⟩]⟩)).scatter .zero
    (s.running = true ∧ s.alphaTarget = 0.0 ∧ s.alpha = 1) ∧
      (∀ j, (ticked^[j] (s, m)).1.running = true ↔ j < 2) ∧ ticked^[3] (s, m) = ticked^[2] (s, m) := by
  intro settings forces s m
  have halpha : s.alpha = 1 := clamp_unit exact_real (r := 1) (by simp)
  obtain ⟨least, decay, hmin, hrate, n, hn, hruns, hrest⟩ := ticks_come_to_rest exact_real settings (isNaN_real _)
    (isNaN_real _) s rfl rfl rfl (show (1 : ℝ) ∈ Set.Icc 0 1 by simp) halpha rfl m
  have hleast : least = 0.3 := by
    rw [← show s.alphaMin = least from hmin]
    norm_num [s, settings, restart, setForces, ofSettings, SimulationSettings.sanitized, clamp]
  have hdecay : decay = 0.5 := by
    rw [← show s.alphaDecay = decay from hrate]
    norm_num [s, settings, restart, setForces, ofSettings, SimulationSettings.sanitized, clamp]
  have htwo : IsLeast {n : ℕ | 1 ≤ n ∧ 1 * (1 - decay) ^ n < least} 2 := by
    rw [hleast, hdecay]
    refine ⟨⟨by norm_num, by norm_num⟩, fun i hi => ?_⟩
    by_contra hlt
    obtain rfl : i = 1 := by have := hi.1; omega
    exact absurd hi.2 (by norm_num)
  obtain rfl : n = 2 := hn.unique htwo
  exact ⟨⟨rfl, rfl, halpha⟩, hruns, (hrest [] (by simp)).2⟩

end CallAtlas.Simulation
