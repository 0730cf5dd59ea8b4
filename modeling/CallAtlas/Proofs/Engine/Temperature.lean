import Mathlib
import CallAtlas.Proofs.Engine.Forces
import CallAtlas.Proofs.Engine.Rows
import CallAtlas.Proofs.Number.Exact

/-! The temperature stays between 0 and 1, and the simulation stays awake while a node is in the hand.

Nothing is rounded here: the reals lie among the scalars by a map `ι` that is `Scalar.Exact`. A `Thermostat` holds the
three temperatures that sanitized settings fix, with their bounds. A tick is then a convex step from the present
temperature to the target one, so both stay between 0 and 1 (`Simulation.Regulated`).

If a drag keeps the simulation as warm as it must be to run, a running simulation is never too cold (`Alert.hot`), and
the next step toward the temperature of the drag does not make it so. This is what keeps it awake (`Alert.awake`). -/

namespace CallAtlas

set_option autoImplicit false

open Scalar

/-! ## Settings -/

/-- The temperatures of the settings: below the least one the simulation rests, a drag keeps its own, and a tick goes a
share `decay` of the way to the target. -/
structure Thermostat where
  least : ℝ
  decay : ℝ
  drag : ℝ
  least_mem : least ∈ Set.Icc (0 : ℝ) 1
  decay_mem : decay ∈ Set.Icc (0 : ℝ) 1
  drag_mem : drag ∈ Set.Icc (0 : ℝ) 1

variable {α : Type} [Scalar α] {ι : ℝ → α} {k : Thermostat}

structure SimulationSettings.SetTo (ι : ℝ → α) (k : Thermostat) (s : SimulationSettings α) : Prop where
  alphaMin : s.alphaMin = ι k.least
  alphaDecay : s.alphaDecay = ι k.decay
  dragAlphaTarget : s.dragAlphaTarget = ι k.drag

namespace SimulationSettings

theorem sanitized_alphaMin (hι : Exact ι) {s : SimulationSettings α} (h : isNaN s.alphaMin = false) :
    ∃ least ∈ Set.Icc (1e-6 : ℝ) 0.5, s.sanitized.alphaMin = ι least := by
  have hclamp := hι.clamp_mem (show (1e-6 : ℝ) ≤ 0.5 by norm_num) h
  simp only [← hι.literal] at hclamp
  exact hclamp

theorem sanitized_alphaDecay (hι : Exact ι) {s : SimulationSettings α} (h : isNaN s.alphaDecay = false) :
    ∃ decay ∈ Set.Icc (1e-4 : ℝ) 1.0, s.sanitized.alphaDecay = ι decay := by
  have hclamp := hι.clamp_mem (show (1e-4 : ℝ) ≤ 1.0 by norm_num) h
  simp only [← hι.literal] at hclamp
  exact hclamp

theorem exists_setTo (hι : Exact ι) (s : SimulationSettings α) (hleast : isNaN s.alphaMin = false)
    (hdecay : isNaN s.alphaDecay = false) (hdrag : isNaN s.dragAlphaTarget = false) :
    ∃ k, s.sanitized.SetTo ι k := by
  obtain ⟨least, hleast_mem, hleast⟩ := sanitized_alphaMin hι hleast
  obtain ⟨decay, hdecay_mem, hdecay⟩ := sanitized_alphaDecay hι hdecay
  obtain ⟨drag, hdrag_mem, hdrag⟩ := hι.clamp_mem (show (0.0 : ℝ) ≤ 1.0 by norm_num) hdrag
  simp only [← hι.literal] at hdrag
  refine ⟨⟨least, decay, drag, ?_, ?_, ?_⟩, hleast, hdecay, hdrag⟩
  · exact Set.Icc_subset_Icc (by norm_num) (by norm_num) hleast_mem
  · exact Set.Icc_subset_Icc (by norm_num) (by norm_num) hdecay_mem
  · exact Set.Icc_subset_Icc (by norm_num) (by norm_num) hdrag_mem

end SimulationSettings

/-! ## Simulation -/

namespace Simulation

/-- The temperature and its target lie between 0 and 1, and move as the thermostat says. -/
structure Regulated (ι : ℝ → α) (k : Thermostat) (s : Simulation α) : Prop where
  alpha : ∃ a ∈ Set.Icc (0 : ℝ) 1, s.alpha = ι a
  alphaTarget : ∃ b ∈ Set.Icc (0 : ℝ) 1, s.alphaTarget = ι b
  alphaMin : s.alphaMin = ι k.least
  alphaDecay : s.alphaDecay = ι k.decay

/-- If it runs, it is not too cold to. -/
def Hot (s : Simulation α) : Prop := s.running = true → s.alphaMin ≤ s.alpha

theorem ofSettings_regulated (hι : Exact ι) {settings : SimulationSettings α} (h : settings.SetTo ι k) :
    (ofSettings settings).Regulated ι k :=
  ⟨⟨1, by simp, hι.one⟩, ⟨0, by simp, hι.zero⟩, h.alphaMin, h.alphaDecay⟩

theorem clamp_unit (hι : Exact ι) {r : ℝ} (hr : r ∈ Set.Icc (0 : ℝ) 1) : clamp 0.0 1.0 (ι r) = ι r := by
  rw [hι.zero, hι.one, hι.clamp_of_mem hr]

theorem Regulated.setAlphaTarget (hι : Exact ι) {s : Simulation α} (h : s.Regulated ι k) {r : ℝ}
    (hr : r ∈ Set.Icc (0 : ℝ) 1) : (s.setAlphaTarget (ι r)).Regulated ι k :=
  { h with alphaTarget := ⟨r, hr, clamp_unit hι hr⟩ }

omit [Scalar α] in
theorem Regulated.setForces {s : Simulation α} (h : s.Regulated ι k) (forces : ForceSet α) :
    (s.setForces forces).Regulated ι k :=
  ⟨h.alpha, h.alphaTarget, h.alphaMin, h.alphaDecay⟩

theorem Regulated.restart (hι : Exact ι) {s : Simulation α} (h : s.Regulated ι k) {r : ℝ}
    (hr : r ∈ Set.Icc (0 : ℝ) 1) : (s.restart (ι r)).Regulated ι k :=
  { h with alpha := ⟨r, hr, clamp_unit hι hr⟩ }

theorem restart_hot (hι : Exact ι) {s : Simulation α} (h : s.Regulated ι k) {r : ℝ} (hr : r ∈ Set.Icc (0 : ℝ) 1)
    (hleast : k.least ≤ r) : (s.restart (ι r)).Hot := by
  intro _
  change s.alphaMin ≤ clamp 0.0 1.0 (ι r)
  rw [h.alphaMin, clamp_unit hι hr, hι.le_iff]
  exact hleast

/-- A tick of a running simulation goes part of the way to the target. -/
theorem tick_alpha (hι : Exact ι) {s : Simulation α} (h : s.Regulated ι k) (m : Model α) {a b : ℝ} (ha : s.alpha = ι a)
    (hb : s.alphaTarget = ι b) (hrunning : s.running = true) :
    (s.tick m).1.alpha = ι (a + (b - a) * k.decay) ∧
      (s.tick m).1.running = !decide (ι (a + (b - a) * k.decay) < ι k.least) := by
  rw [tick, if_pos hrunning, ← hι.add, ← hι.mul, ← hι.sub, ← ha, ← hb, ← h.alphaDecay, ← h.alphaMin]
  exact ⟨rfl, rfl⟩

theorem tick_alphaMin_alphaDecay (s : Simulation α) (m : Model α) :
    (s.tick m).1.alphaMin = s.alphaMin ∧ (s.tick m).1.alphaDecay = s.alphaDecay := by
  unfold tick
  split <;> exact ⟨rfl, rfl⟩

/-- A step toward a target stays on the side of a bound on which both ends are. -/
theorem step_mem {lo hi a b : ℝ} (k : Thermostat) (ha : a ∈ Set.Icc lo hi) (hb : b ∈ Set.Icc lo hi) :
    a + (b - a) * k.decay ∈ Set.Icc lo hi := by
  have hstep := (convex_Icc lo hi).add_smul_sub_mem ha hb k.decay_mem
  rwa [smul_eq_mul, mul_comm] at hstep

theorem tick_regulated (hι : Exact ι) {s : Simulation α} (h : s.Regulated ι k) (m : Model α) :
    (s.tick m).1.Regulated ι k := by
  cases hrunning : s.running with
  | true =>
    obtain ⟨a, ha_mem, ha⟩ := h.alpha
    obtain ⟨b, hb_mem, hb⟩ := h.alphaTarget
    obtain ⟨hmin, hdecay⟩ := s.tick_alphaMin_alphaDecay m
    refine ⟨⟨_, step_mem k ha_mem hb_mem, (tick_alpha hι h m ha hb hrunning).1⟩, ⟨b, hb_mem, ?_⟩, ?_, ?_⟩
    · rw [tick_alphaTarget, hb]
    · rw [hmin, h.alphaMin]
    · rw [hdecay, h.alphaDecay]
  | false =>
    rw [tick_of_rests hrunning]
    exact h

/-- A tick never leaves a simulation running that is too cold. -/
theorem tick_hot (hι : Exact ι) {s : Simulation α} (h : s.Regulated ι k) (m : Model α) : (s.tick m).1.Hot := by
  cases hrunning : s.running with
  | true =>
    obtain ⟨a, -, ha⟩ := h.alpha
    obtain ⟨b, -, hb⟩ := h.alphaTarget
    obtain ⟨halpha, hruns⟩ := tick_alpha hι h m ha hb hrunning
    intro hstill
    rw [hruns, Bool.not_eq_true', decide_eq_false_iff_not, hι.lt_iff, not_lt] at hstill
    rw [(s.tick_alphaMin_alphaDecay m).1, h.alphaMin, halpha, hι.le_iff]
    exact hstill
  | false =>
    rw [tick_of_rests hrunning]
    exact fun hruns => absurd (hrunning.symm.trans hruns) Bool.false_ne_true

/-- On its way to a target at which it runs, a running simulation goes on. -/
theorem tick_running_of_hot (hι : Exact ι) {s : Simulation α} (h : s.Regulated ι k) (hhot : s.Hot)
    (hrunning : s.running = true) (htarget : s.alphaMin ≤ s.alphaTarget) (m : Model α) :
    (s.tick m).1.running = true := by
  obtain ⟨a, ha_mem, ha⟩ := h.alpha
  obtain ⟨b, hb_mem, hb⟩ := h.alphaTarget
  have hleast : k.least ≤ a := by
    rw [← hι.le_iff, ← h.alphaMin, ← ha]
    exact hhot hrunning
  rw [h.alphaMin, hb, hι.le_iff] at htarget
  rw [(tick_alpha hι h m ha hb hrunning).2, Bool.not_eq_true', decide_eq_false_iff_not, hι.lt_iff, not_lt]
  exact (step_mem k ⟨hleast, ha_mem.2⟩ ⟨htarget, hb_mem.2⟩).1

end Simulation

/-! ## Drags and layouts -/

namespace Held

theorem warm_running (target : α) (s : Simulation α) : (warm target s).running = true := by
  unfold warm
  dsimp only
  split
  · next hrunning => exact hrunning
  · rfl

theorem warm_regulated (hι : Exact ι) {s : Simulation α} (h : s.Regulated ι k) :
    (warm (ι k.drag) s).Regulated ι k := by
  unfold warm
  dsimp only
  split
  · exact h.setAlphaTarget hι k.drag_mem
  · exact (h.restart hι k.drag_mem).setAlphaTarget hι k.drag_mem

theorem warm_hot (hι : Exact ι) {s : Simulation α} (h : s.Regulated ι k) (hhot : s.Hot) (hk : k.least ≤ k.drag) :
    (warm (ι k.drag) s).Hot := by
  unfold warm
  dsimp only
  split
  · exact hhot
  · exact Simulation.restart_hot hι h k.drag_mem hk

theorem begin_simulation {node : ℕ} {pointer : Vec α} {simulated : Bool} {h h' : Held α}
    (hbegin : h.begin node pointer simulated = some h') :
    h'.simulation = if simulated then warm h.drags.alphaTarget h.simulation else h.simulation := by
  obtain ⟨_, _, _, rfl⟩ := (begin_eq_some_iff node pointer simulated h h').mp hbegin
  rfl

/-- Letting a node go changes at most the target. -/
theorem finish_simulation (node : ℕ) (h : Held α) :
    (h.finish node).simulation = h.simulation ∨ (h.finish node).simulation = h.simulation.setAlphaTarget 0.0 := by
  unfold finish
  split
  · dsimp only
    split
    · exact Or.inr rfl
    · exact Or.inl rfl
  · exact Or.inl rfl

end Held

namespace Arrangement

variable {mode : LayoutMode} {settings : SimulationSettings α} {layout : LayoutSettings α} {center : Vec α}
  {m : Model α} {s : Simulation α}

theorem apply_regulated (hι : Exact ι) (h : s.Regulated ι k) :
    (apply mode settings layout center m s).2.Regulated ι k := by
  unfold apply
  dsimp only
  split
  · rw [hι.one]
    exact (h.setForces _).restart hι (by simp)
  · exact ⟨h.alpha, h.alphaTarget, h.alphaMin, h.alphaDecay⟩

/-- A layout starts the simulation hot or stops it. -/
theorem apply_hot (hι : Exact ι) (h : s.Regulated ι k) : (apply mode settings layout center m s).2.Hot := by
  unfold apply
  dsimp only
  split
  · rw [hι.one]
    exact Simulation.restart_hot hι (h.setForces _) (by simp) k.least_mem.2
  · exact fun hruns => absurd hruns Bool.false_ne_true

end Arrangement

/-! ## Engine -/

namespace Engine

/-- The thermostat of an engine is that of its settings, for its simulation and for its drags. -/
structure Tempered (ι : ℝ → α) (k : Thermostat) (e : Engine α) : Prop where
  settings : e.settings.simulation.SetTo ι k
  dragTarget : e.drags.alphaTarget = ι k.drag
  simulation : e.simulation.Regulated ι k

/-- A simulation that runs is hot enough to, and one that moves a node in the hand runs. -/
structure Alert (e : Engine α) : Prop where
  hot : e.simulation.Hot
  awake : e.drags.active ≠ [] → e.mode.isSimulated = true → e.simulation.running = true

theorem ofSettings_tempered (hι : Exact ι) {settings : Settings α} (h : settings.sanitized.simulation.SetTo ι k) :
    (ofSettings settings).Tempered ι k :=
  ⟨h, h.dragAlphaTarget, Simulation.ofSettings_regulated hι h⟩

theorem ofSettings_alert (settings : Settings α) : (ofSettings settings).Alert :=
  ⟨fun hruns => absurd hruns Bool.false_ne_true, fun hactive => absurd rfl hactive⟩

theorem cancelDrags_regulated (hι : Exact ι) {e : Engine α} (h : e.simulation.Regulated ι k) :
    e.cancelDrags.simulation.Regulated ι k := by
  change (e.simulation.setAlphaTarget 0.0).Regulated ι k
  rw [hι.zero]
  exact h.setAlphaTarget hι (by simp)

theorem Move.regulated (hι : Exact ι) {e e' : Engine α} (hmove : Move e e') (h : e.Tempered ι k) :
    e'.simulation.Regulated ι k := by
  cases hmove with
  | load graph => exact Arrangement.apply_regulated hι (Simulation.ofSettings_regulated hι h.settings)
  | setLayout mode => exact Arrangement.apply_regulated hι (cancelDrags_regulated hι h.simulation)
  | change hchange =>
    cases hchange with
    | resize size => exact h.simulation.setForces _
    | tick => exact Simulation.tick_regulated hι h.simulation e.model
    | @grab _ _ held _ _ hbegin =>
      change held.simulation.Regulated ι k
      rw [Held.begin_simulation hbegin]
      split
      · rw [show e.held.drags.alphaTarget = ι k.drag from h.dragTarget]
        exact Held.warm_regulated hι h.simulation
      · exact h.simulation
    | drag node screen =>
      change (e.held.moveTo node _).simulation.Regulated ι k
      rw [(Held.moveTo_frame node _ e.held).2]
      exact h.simulation
    | drop node =>
      change (e.held.finish node).simulation.Regulated ι k
      rcases Held.finish_simulation node e.held with hsame | hcool
      · rw [hsame]
        exact h.simulation
      · rw [hcool, hι.zero]
        exact h.simulation.setAlphaTarget hι (by simp)
    | _ => exact h.simulation

theorem Move.tempered (hι : Exact ι) {e e' : Engine α} (hmove : Move e e') (h : e.Tempered ι k) : e'.Tempered ι k :=
  ⟨hmove.settings ▸ h.settings, hmove.drags_alphaTarget.trans h.dragTarget, hmove.regulated hι h⟩

/-- While a node is in the hand, the simulation is on its way to the temperature of the drag. -/
theorem Tempered.alphaMin_le_alphaTarget (hι : Exact ι) (hk : k.least ≤ k.drag) {e : Engine α} (h : e.Tempered ι k)
    (hc : e.Coherent) (hactive : e.drags.active ≠ []) (hsim : e.mode.isSimulated = true) :
    e.simulation.alphaMin ≤ e.simulation.alphaTarget := by
  have hwarm : e.simulation.alphaTarget = clamp 0.0 1.0 e.drags.alphaTarget := hc.warm hactive hsim
  rw [hwarm, h.dragTarget, Simulation.clamp_unit hι k.drag_mem, h.simulation.alphaMin, hι.le_iff]
  exact hk

/-- No move lets the simulation rest while a node is in the hand, if a drag keeps it warm enough. -/
theorem Move.alert (hι : Exact ι) (hk : k.least ≤ k.drag) {e e' : Engine α} (hmove : Move e e') (ht : e.Tempered ι k)
    (hc : e.Coherent) (h : e.Alert) : e'.Alert := by
  cases hmove with
  | load graph =>
    exact ⟨Arrangement.apply_hot hι (Simulation.ofSettings_regulated hι ht.settings), fun hactive => absurd rfl hactive⟩
  | setLayout mode =>
    exact ⟨Arrangement.apply_hot hι (cancelDrags_regulated hι ht.simulation), fun hactive => absurd rfl hactive⟩
  | change hchange =>
    cases hchange with
    | tick =>
      refine ⟨Simulation.tick_hot hι ht.simulation e.model, fun hactive hsim => ?_⟩
      exact Simulation.tick_running_of_hot hι ht.simulation h.hot (h.awake hactive hsim)
        (ht.alphaMin_le_alphaTarget hι hk hc hactive hsim) e.model
    | @grab _ _ held _ _ hbegin =>
      have hsimulation := Held.begin_simulation hbegin
      rw [show e.held.drags.alphaTarget = ι k.drag from ht.dragTarget] at hsimulation
      refine ⟨?_, fun _ hsim => ?_⟩
      · change held.simulation.Hot
        rw [hsimulation]
        split
        · exact Held.warm_hot hι ht.simulation h.hot hk
        · exact h.hot
      · change held.simulation.running = true
        have hmode : e.mode.isSimulated = true := hsim
        rw [hsimulation, if_pos hmode]
        exact Held.warm_running _ _
    | drag node screen =>
      have hdrags : (e.dragTo node screen).drags = e.drags := Held.moveTo_drags node _ e.held
      have hsimulation : (e.dragTo node screen).simulation = e.simulation := (Held.moveTo_frame node _ e.held).2
      refine ⟨?_, fun hactive hsim => ?_⟩
      · rw [hsimulation]
        exact h.hot
      · rw [hdrags] at hactive
        rw [hsimulation]
        exact h.awake hactive hsim
    | drop node =>
      refine ⟨?_, fun hactive hsim => ?_⟩
      · change (e.held.finish node).simulation.Hot
        rcases Held.finish_simulation node e.held with hsame | hcool
        · rw [hsame]
          exact h.hot
        · rw [hcool]
          exact h.hot
      · obtain ⟨drag, hdrag⟩ := List.exists_mem_of_ne_nil _ hactive
        have hbefore := ((Held.mem_finish_active node e.held drag).mp hdrag).1
        exact (Held.finish_frame node e.held).2.2.trans (h.awake (List.ne_nil_of_mem hbefore) hsim)
    | _ => exact ⟨h.hot, h.awake⟩

theorem moves_iterate_tick (n : ℕ) (e : Engine α) : Moves e (tick^[n] e) := by
  induction n with
  | zero => exact .refl
  | succ n ih =>
    rw [Function.iterate_succ_apply']
    exact ih.tail (.change (.tick _))

/-- Without rounding, along every run the temperature and its target lie between 0 and 1, a tick leaves the simulation
running only if it is not too cold, and as long as a node is in the hand under a simulated layout the simulation runs,
if a drag keeps it as warm as it must be to run. Infinite settings are allowed. -/
theorem run_temperature (hι : Exact ι) (settings : Settings α) (hleast : isNaN settings.simulation.alphaMin = false)
    (hdecay : isNaN settings.simulation.alphaDecay = false) (hdrag : isNaN settings.simulation.dragAlphaTarget = false)
    (ops : List (Operation α)) :
    ∃ e replies, (ofSettings settings).run ops = .ok (e, replies) ∧
      (0.0 ≤ e.simulation.alpha ∧ e.simulation.alpha ≤ 1.0) ∧
      (0.0 ≤ e.simulation.alphaTarget ∧ e.simulation.alphaTarget ≤ 1.0) ∧
      (∀ n, (tick^[n] e).tick.simulation.running = true →
        settings.sanitized.simulation.alphaMin ≤ (tick^[n] e).tick.simulation.alpha) ∧
      (settings.sanitized.simulation.alphaMin ≤ settings.sanitized.simulation.dragAlphaTarget →
        e.drags.active ≠ [] → e.mode = .force ∨ e.mode = .radial → e.simulation.running = true) := by
  obtain ⟨k, hk⟩ := settings.simulation.exists_setTo hι hleast hdecay hdrag
  have horder : (0.1 : α) ≤ 4.0 := by
    rw [hι.literal, hι.literal, hι.le_iff]
    norm_num
  have hzero : clamp 0.0 1.0 (0.0 : α) = 0.0 := by
    have hmem : (0 : ℝ) ∈ Set.Icc (0 : ℝ) 1 := by simp
    simpa [hι.zero] using Simulation.clamp_unit hι hmem
  obtain ⟨e, replies, hrun, hmoves⟩ := run_moves ops (ofSettings settings) (ofSettings_inOrder horder settings)
  have htempered : e.Tempered ι k :=
    preserved_along (Tempered ι k) (Move.tempered hι) hmoves (ofSettings_tempered hι hk)
  obtain ⟨a, ha_mem, ha⟩ := htempered.simulation.alpha
  obtain ⟨b, hb_mem, hb⟩ := htempered.simulation.alphaTarget
  refine ⟨e, replies, hrun, ?_, ?_, fun n hruns => ?_, fun hwarm hactive hmode => ?_⟩
  · rw [ha, hι.zero, hι.one, hι.le_iff, hι.le_iff]
    exact ha_mem
  · rw [hb, hι.zero, hι.one, hι.le_iff, hι.le_iff]
    exact hb_mem
  · have hbefore : (tick^[n] e).Tempered ι k :=
      preserved_along (Tempered ι k) (Move.tempered hι) (moves_iterate_tick n e) htempered
    have hafter : (tick^[n] e).tick.Tempered ι k := (Move.change (.tick _)).tempered hι hbefore
    have hhot : (tick^[n] e).tick.simulation.Hot := Simulation.tick_hot hι hbefore.simulation (tick^[n] e).model
    calc settings.sanitized.simulation.alphaMin = ι k.least := hk.alphaMin
      _ = (tick^[n] e).tick.simulation.alphaMin := hafter.simulation.alphaMin.symm
      _ ≤ (tick^[n] e).tick.simulation.alpha := hhot hruns
  · have hleast : k.least ≤ k.drag := by
      rw [← hι.le_iff, ← hk.alphaMin, ← hk.dragAlphaTarget]
      exact hwarm
    -- The three invariants go together: a move keeps the last one where the first two hold.
    have halert : e.Tempered ι k ∧ e.Coherent ∧ e.Alert := by
      refine preserved_along (fun e => e.Tempered ι k ∧ e.Coherent ∧ e.Alert) ?_ hmoves
        ⟨ofSettings_tempered hι hk, ofSettings_coherent settings, ofSettings_alert settings⟩
      rintro e e' hmove ⟨ht, hc, ha⟩
      exact ⟨hmove.tempered hι ht, hmove.coherent hzero hc, hmove.alert hι hleast ht hc ha⟩
    refine halert.2.2.awake hactive ?_
    rcases hmode with hmode | hmode <;> rw [hmode] <;> rfl

/-- Under forces a loaded graph lies on the spiral. -/
theorem load_body? (graph : GraphSpec) {e : Engine α} (hmode : e.mode = .force) {i : ℕ}
    (hi : i < (CallGraph.ofSpec graph).size) :
    (e.load graph).model.body? i = some ⟨Model.spiralPoint e.viewport.center i, .zero, none⟩ := by
  have hmodel : (e.load graph).model =
      Arrangement.stopped ((Model.ofGraph (.ofSpec graph)).scatter e.viewport.center) := by
    obtain ⟨settings, model, simulation, mode, root, viewport, search, metric, drags, elapsed⟩ := e
    dsimp only at hmode
    subst hmode
    rfl
  have hscattered : ((Model.ofGraph (.ofSpec graph)).scatter e.viewport.center).body? i =
      some ⟨Model.spiralPoint e.viewport.center i, .zero, none⟩ :=
    (Vector.getElem?_ofFn ..).trans (dif_pos hi)
  rw [hmodel, Arrangement.stopped, Model.body?_mapBodies, hscattered]
  rfl

/-- The only node of a graph can be taken where it is first put. -/
theorem lone_node_taken :
    let start : Engine ℝ := ofSettings .standard
    ((start.load ⟨[.ofId "a"], []⟩).beginDrag (Model.spiralPoint start.viewport.center 0)).1.drags.active ≠ [] := by
  intro start
  have hinvert : (start.load ⟨[.ofId "a"], []⟩).transform.invert (Model.spiralPoint start.viewport.center 0) =
      Model.spiralPoint start.viewport.center 0 := by
    change (Transform.identity : Transform ℝ).invert _ = _
    ext <;> norm_num [Transform.invert, Transform.identity, Vec.zero]
  obtain ⟨hsize, hbody⟩ := (Model.body?_eq_some_iff _ _ _).mp
    (load_body? ⟨[.ofId "a"], []⟩ (e := start) rfl (show 0 < _ by decide))
  have hfound : ((start.load ⟨[.ofId "a"], []⟩).nodeAt (Model.spiralPoint start.viewport.center 0)).isSome := by
    rw [nodeAt, Option.isSome_map, Painting.nodeAt, List.find?_isSome]
    refine ⟨⟨0, hsize⟩, List.mem_reverse.mpr (List.mem_finRange _), ?_⟩
    rw [hinvert, hbody, Painting.covers, decide_eq_true_eq, sub_self]
    norm_num [Vec.lengthSq, Painting.nodeRadius]
  obtain ⟨node, hnode⟩ := Option.isSome_iff_exists.mp hfound
  obtain ⟨held, hbegin, hnodes⟩ := beginDrag_of_free hnode List.not_mem_nil
  rw [hbegin]
  intro hnil
  have hnil' : held.drags.nodes = [] := by rw [Drags.nodes, show held.drags.active = [] from hnil, List.map_nil]
  rw [hnil'] at hnodes
  exact absurd hnodes (by simp)

/-- A node in the hand keeps the simulation running through a thousand ticks, which would otherwise bring it to rest. -/
theorem taken_node_keeps_awake :
    let start : Engine ℝ := ofSettings .standard
    Exact (id : ℝ → ℝ) ∧
      ∃ e replies, start.run [.load ⟨[.ofId "a"], []⟩, .beginDrag (Model.spiralPoint start.viewport.center 0),
          .settle 1000] = .ok (e, replies) ∧
        e.drags.active ≠ [] ∧ e.simulation.running = true := by
  intro start
  obtain ⟨e, replies, hrun, -, -, -, hawake⟩ := run_temperature exact_real .standard (isNaN_real _) (isNaN_real _)
    (isNaN_real _) [.load ⟨[.ofId "a"], []⟩, .beginDrag (Model.spiralPoint start.viewport.center 0), .settle 1000]
  have hlast : e = (settleFrom 0 1000
      ((start.load ⟨[.ofId "a"], []⟩).beginDrag (Model.spiralPoint start.viewport.center 0)).1).1 := by
    simp only [run, step, bind, Except.bind, pure, Except.pure, Except.ok.injEq, Prod.mk.injEq] at hrun
    exact hrun.1.symm
  have hactive : e.drags.active ≠ [] := by
    obtain ⟨model, simulation, hframe⟩ := settleFrom_frame 0 1000
      ((start.load ⟨[.ofId "a"], []⟩).beginDrag (Model.spiralPoint start.viewport.center 0)).1
    rw [hlast, hframe]
    exact lone_node_taken
  have hmode : e.mode = .force := by
    rw [hlast]
    exact preserved_along (·.mode = .force) (fun hchange h => hchange.mode.trans h)
      ((beginDrag_changes _ _).trans (settleFrom_changes 0 1000 _)) rfl
  have hwarm : (Settings.standard : Settings ℝ).sanitized.simulation.alphaMin ≤
      (Settings.standard : Settings ℝ).sanitized.simulation.dragAlphaTarget := by
    norm_num [Settings.sanitized, SimulationSettings.sanitized, Settings.standard, SimulationSettings.standard, clamp]
  exact ⟨exact_real, e, replies, hrun, hactive, hawake hwarm hactive (Or.inl hmode)⟩

end Engine

end CallAtlas
