import Mathlib
import CallAtlas.Proofs.Engine.Ticks
import CallAtlas.Proofs.Number.Exact

/-! Frames run as many ticks as their time makes due, without rounding.

The time that has passed and is not yet simulated is always less than makes a tick due (`Pending`). A tick takes at
least `tickThreshold` and at most `tickSeconds` of it (`runDue_takes`), so the ticks of any number of frames are
accounted for by the time of these frames and what is pending before and after them (`Paced.takes`). -/

namespace CallAtlas

set_option autoImplicit false

open Scalar Simulation

variable {α : Type} [Scalar α] {ι : ℝ → α}

namespace Engine

/-! ## Ticks of a frame -/

/-- A tick that is due takes its time. -/
def dueTick (e : Engine α) : Engine α := { e with elapsed := larger (e.elapsed - tickSeconds) 0.0 }.tick

/-- The number of ticks that `runDue` runs. -/
def ticksDue : ℕ → Engine α → ℕ
  | 0, _ => 0
  | limit + 1, e =>
    if tickThreshold ≤ e.elapsed then
      if e.dueTick.simulation.running then ticksDue limit e.dueTick + 1 else 1
    else 0

/-- The engine in a frame, before its ticks, with no more time than they can take. -/
def inFrame (seconds : α) (e : Engine α) : Engine α :=
  { e with elapsed :=
      smaller (e.elapsed + seconds) (tickSeconds * (e.settings.simulation.maxTicksPerFrame : α)) }

/-- The number of ticks that `advance` runs. -/
def advanceTicks (seconds : α) (e : Engine α) : ℕ :=
  if !e.simulation.running then 0
  else if !isFinite seconds || seconds ≤ 0.0 then 0
  else ticksDue e.settings.simulation.maxTicksPerFrame (e.inFrame seconds)

theorem runDue_succ (limit : ℕ) (e : Engine α) :
    runDue (limit + 1) e =
      if tickThreshold ≤ e.elapsed then
        if e.dueTick.simulation.running then runDue limit e.dueTick else ({ e.dueTick with elapsed := 0.0 }, false)
      else (e, true) := rfl

/-! ## Time -/

/-- Seconds that are not yet simulated, less than make a tick due. -/
structure Pending (ι : ℝ → α) (rest : ℝ) (e : Engine α) : Prop where
  elapsed : e.elapsed = ι rest
  mem : rest ∈ Set.Ico (0 : ℝ) tickThreshold

/-- Ticks take time away, each one at least the threshold and at most the length of a tick. -/
structure Takes (ticks : ℕ) (time rest : ℝ) : Prop where
  least : ticks * tickThreshold ≤ time - rest
  most : time - rest ≤ ticks * tickSeconds

theorem tickSeconds_eq (hι : ExactField ι) : (tickSeconds : α) = ι tickSeconds := by
  rw [tickSeconds, hι.literal, hι.literal, hι.div _ _ (by norm_num)]
  rfl

theorem tickThreshold_eq (hι : ExactField ι) : (tickThreshold : α) = ι tickThreshold := by
  rw [tickThreshold, tickSeconds_eq hι, hι.literal, hι.mul]
  rfl

theorem tickSeconds_real : (tickSeconds : ℝ) = 1 / 60 := by
  norm_num [tickSeconds]

theorem tickThreshold_real : (tickThreshold : ℝ) = 0.999 * tickSeconds := mul_comm _ _

theorem tickThreshold_pos : (0 : ℝ) < tickThreshold := by
  rw [tickThreshold_real, tickSeconds_real]
  norm_num

theorem tickThreshold_le : (tickThreshold : ℝ) ≤ tickSeconds := by
  rw [tickThreshold_real, tickSeconds_real]
  norm_num

theorem takes_zero (time : ℝ) : Takes 0 time time := by
  constructor <;> simp

theorem takes_one {time : ℝ} (hdue : tickThreshold ≤ time) : Takes 1 time (max (time - tickSeconds) 0) := by
  have hle := tickThreshold_le
  rcases max_cases (time - tickSeconds) 0 with ⟨h, -⟩ | ⟨h, hlt⟩
  · rw [h]
    constructor
    · simpa using hle
    · simp
  · rw [h]
    constructor
    · simpa using hdue
    · simpa using (sub_neg.mp hlt).le

theorem Takes.trans {m n : ℕ} {time between rest : ℝ} (hfirst : Takes m time between) (hsecond : Takes n between rest) :
    Takes (m + n) time rest := by
  obtain ⟨hleast, hmost⟩ := hfirst
  obtain ⟨hleast', hmost'⟩ := hsecond
  constructor
  · rw [Nat.cast_add, add_mul]
    linarith
  · rw [Nat.cast_add, add_mul]
    linarith

theorem Takes.add_right {n : ℕ} {time rest : ℝ} (h : Takes n time rest) (more : ℝ) :
    Takes n (time + more) (rest + more) := by
  constructor
  · rw [add_sub_add_right_eq_sub]
    exact h.least
  · rw [add_sub_add_right_eq_sub]
    exact h.most

theorem dueTick_elapsed (hι : ExactField ι) {e : Engine α} {time : ℝ} (helapsed : e.elapsed = ι time) :
    e.dueTick.elapsed = ι (max (time - tickSeconds) 0) := by
  change larger (e.elapsed - tickSeconds) 0.0 = _
  rw [helapsed, tickSeconds_eq hι, hι.sub, hι.zero, hι.larger_eq]

/-- The loop of a frame, with no more time than its ticks can take. -/
theorem runDue_takes (hι : ExactField ι) (limit : ℕ) {e : Engine α} {time : ℝ} (helapsed : e.elapsed = ι time)
    (htime : time ∈ Set.Icc (0 : ℝ) (limit * tickSeconds)) (hrunning : e.simulation.running = true) :
    ∃ e' rest, runDue limit e = (e', e'.simulation.running) ∧ e'.Pending ι rest ∧ ticksDue limit e ≤ limit ∧
      RunningTicks (ticksDue limit e) e.moving e'.moving ∧
      (e'.simulation.running = true → Takes (ticksDue limit e) time rest) := by
  induction limit generalizing e time with
  | zero =>
    have hzero : time = 0 := le_antisymm (by simpa using htime.2) htime.1
    refine ⟨e, time, by rw [runDue, hrunning], ⟨helapsed, htime.1, ?_⟩, le_rfl, .zero _, fun _ => takes_zero time⟩
    rw [hzero]
    exact tickThreshold_pos
  | succ limit ih =>
    rw [runDue_succ, ticksDue, helapsed, tickThreshold_eq hι]
    by_cases hdue : tickThreshold ≤ time
    · rw [if_pos ((hι.le_iff ..).mpr hdue), if_pos ((hι.le_iff ..).mpr hdue)]
      cases hticked : e.dueTick.simulation.running with
      | true =>
        have hleft : max (time - tickSeconds) 0 ∈ Set.Icc (0 : ℝ) (limit * tickSeconds) := by
          refine ⟨le_max_right _ _, max_le ?_ ?_⟩
          · have hmost := htime.2
            rw [Nat.cast_succ, add_mul, one_mul] at hmost
            linarith
          · exact mul_nonneg limit.cast_nonneg (tickThreshold_pos.le.trans tickThreshold_le)
        obtain ⟨e', rest, hrun, hpending, hle, hticks, htakes⟩ := ih (dueTick_elapsed hι helapsed) hleft hticked
        refine ⟨e', rest, hrun, hpending, Nat.succ_le_succ hle, .succ hrunning hticks, fun hstill => ?_⟩
        rw [if_pos rfl, Nat.add_comm]
        exact (takes_one hdue).trans (htakes hstill)
      | false =>
        refine ⟨{ e.dueTick with elapsed := 0.0 }, 0, ?_, ⟨hι.zero, le_rfl, tickThreshold_pos⟩, ?_, ?_,
          fun hstill => ?_⟩
        · rw [if_neg Bool.false_ne_true]
          exact congrArg _ hticked.symm
        · exact Nat.succ_le_succ limit.zero_le
        · exact .succ hrunning (.zero _)
        · exact absurd (hticked.symm.trans hstill) Bool.false_ne_true
    · rw [if_neg (mt (hι.le_iff ..).mp hdue), if_neg (mt (hι.le_iff ..).mp hdue)]
      refine ⟨e, time, by rw [hrunning], ⟨helapsed, htime.1, not_le.mp hdue⟩, Nat.zero_le _, .zero _, fun _ => ?_⟩
      exact takes_zero time

/-! ## Frames -/

/-- In a frame no time is cut off, or fewer ticks run than a frame may have. -/
def Uncapped (seconds : α) (e : Engine α) : Prop :=
  e.elapsed + seconds ≤ tickSeconds * (e.settings.simulation.maxTicksPerFrame : α) ∨
    e.advanceTicks seconds < e.settings.simulation.maxTicksPerFrame

/-- Cut time leaves no room for fewer ticks. -/
theorem min_eq_of_uncapped {limit ticks : ℕ} {time rest : ℝ}
    (htakes : Takes ticks (min time (tickSeconds * limit)) rest) (hrest : rest < tickThreshold)
    (h : time ≤ tickSeconds * limit ∨ ticks < limit) : min time (tickSeconds * limit) = time := by
  rcases h with hle | hlt
  · exact min_eq_left hle
  by_contra hcut
  have hmost := htakes.most
  rw [min_eq_right (not_le.mp fun hle => hcut (min_eq_left hle)).le] at hmost
  have hmore : (ticks + 1 : ℝ) ≤ limit := by exact_mod_cast hlt
  have hroom : tickSeconds * (ticks + 1 : ℝ) ≤ tickSeconds * limit :=
    mul_le_mul_of_nonneg_left hmore (tickThreshold_pos.le.trans tickThreshold_le)
  linarith [tickThreshold_le]

theorem inFrame_elapsed (hι : ExactField ι) {e : Engine α} {rest : ℝ} (h : e.elapsed = ι rest) (r : ℝ) :
    (e.inFrame (ι r)).elapsed = ι (min (rest + r) (tickSeconds * e.settings.simulation.maxTicksPerFrame)) := by
  change smaller (e.elapsed + ι r) _ = _
  rw [h, hι.add, tickSeconds_eq hι, hι.natCast, hι.mul, hι.smaller_eq]

/-- What `advance` does: the simulation rests, or the time is none to go by, or the ticks of a frame are run. -/
theorem advance_cases (hι : ExactField ι) (seconds : α) (e : Engine α) :
    e.simulation.running = false ∧ e.advance seconds = ({ e with elapsed := 0.0 }, false) ∧
        e.advanceTicks seconds = 0 ∨
      e.simulation.running = true ∧ (∀ r, seconds = ι r → r ≤ 0) ∧ e.advance seconds = (e, true) ∧
        e.advanceTicks seconds = 0 ∨
      e.simulation.running = true ∧ ∃ r, seconds = ι r ∧ 0 < r ∧
        e.advance seconds = runDue e.settings.simulation.maxTicksPerFrame (e.inFrame seconds) ∧
        e.advanceTicks seconds = ticksDue e.settings.simulation.maxTicksPerFrame (e.inFrame seconds) := by
  cases hrunning : e.simulation.running with
  | false => exact Or.inl ⟨rfl, advance_of_rests hrunning seconds, if_pos (by simp [hrunning])⟩
  | true =>
    refine Or.inr ?_
    have hadvance : e.advance seconds = if !isFinite seconds || seconds ≤ 0.0 then (e, true)
        else runDue e.settings.simulation.maxTicksPerFrame (e.inFrame seconds) := if_neg (by simp [hrunning])
    have hticks : e.advanceTicks seconds = if !isFinite seconds || seconds ≤ 0.0 then 0
        else ticksDue e.settings.simulation.maxTicksPerFrame (e.inFrame seconds) := if_neg (by simp [hrunning])
    by_cases hidle : (!isFinite seconds || decide (seconds ≤ 0.0)) = true
    · refine Or.inl ⟨rfl, ?_, hadvance.trans (if_pos hidle), hticks.trans (if_pos hidle)⟩
      rintro r rfl
      have hfinite : isFinite (ι r) = true := (hι.isFinite_iff _).mpr ⟨r, rfl⟩
      simpa [hfinite, hι.zero, hι.le_iff] using hidle
    · have hgoes : isFinite seconds = true ∧ ¬ seconds ≤ 0.0 := by simpa using hidle
      obtain ⟨r, rfl⟩ := (hι.isFinite_iff _).mp hgoes.1
      rw [hι.zero, hι.le_iff, not_le] at hgoes
      exact Or.inr ⟨rfl, r, rfl, hgoes.2, hadvance.trans (if_neg hidle), hticks.trans (if_neg hidle)⟩

/-- One frame: its ticks are those of a running simulation, at most as many as a frame may have, and they account for
its time unless it is capped or brings the simulation to rest. -/
theorem advance_takes (hι : ExactField ι) {e : Engine α} {before : ℝ} (h : e.Pending ι before) (seconds : α) :
    ∃ e' after, e.advance seconds = (e', e'.simulation.running) ∧ e'.Pending ι after ∧
      e.advanceTicks seconds ≤ e.settings.simulation.maxTicksPerFrame ∧
      RunningTicks (e.advanceTicks seconds) e.moving e'.moving ∧
      ∀ r, seconds = ι r → 0 < r → e.Uncapped seconds → e'.simulation.running = true →
        Takes (e.advanceTicks seconds) (before + r) after := by
  rcases advance_cases hι seconds e with ⟨hrests, hadvance, hticks⟩ | ⟨hrunning, hidle, hadvance, hticks⟩ |
    ⟨hrunning, r, rfl, hr, hadvance, hticks⟩
  · rw [hadvance, hticks]
    refine ⟨{ e with elapsed := 0.0 }, 0, by rw [← hrests], ⟨hι.zero, le_rfl, tickThreshold_pos⟩, Nat.zero_le _,
      .zero _, fun _ _ _ _ hstill => ?_⟩
    exact absurd (hrests.symm.trans hstill) Bool.false_ne_true
  · rw [hadvance, hticks]
    refine ⟨e, before, by rw [hrunning], h, Nat.zero_le _, .zero _, fun r hseconds hr => ?_⟩
    exact absurd (hidle r hseconds) (not_le.mpr hr)
  · have htime : min (before + r) (tickSeconds * e.settings.simulation.maxTicksPerFrame) ∈
        Set.Icc (0 : ℝ) (e.settings.simulation.maxTicksPerFrame * tickSeconds) := by
      refine ⟨le_min (add_nonneg h.mem.1 hr.le) ?_, (min_le_right _ _).trans_eq (mul_comm _ _)⟩
      exact mul_nonneg (tickThreshold_pos.le.trans tickThreshold_le) (Nat.cast_nonneg _)
    obtain ⟨e', after, hrun, hpending, hle, hrunTicks, htakes⟩ :=
      runDue_takes hι _ (inFrame_elapsed hι h.elapsed r) htime hrunning
    refine ⟨e', after, hadvance.trans hrun, hpending, hticks ▸ hle, hticks ▸ hrunTicks, ?_⟩
    intro r' hsame _ huncapped hstill
    obtain rfl := hι.injective hsame
    have hwhole := htakes hstill
    rw [Uncapped, hticks, h.elapsed, hι.add, tickSeconds_eq hι, hι.natCast, hι.mul, hι.le_iff] at huncapped
    rw [min_eq_of_uncapped hwhole hpending.mem.2 huncapped] at hwhole
    exact hticks ▸ hwhole

/-- Frames one after the other, with the number of ticks they run: each one takes some time, none is capped, and the
simulation still runs after each. -/
inductive Paced (ι : ℝ → α) : Engine α → List ℝ → ℕ → Engine α → Prop
  | nil (e : Engine α) : Paced ι e [] 0 e
  | cons {e e' : Engine α} {seconds : ℝ} {frames : List ℝ} {ticks : ℕ} (hpos : 0 < seconds)
      (huncapped : e.Uncapped (ι seconds)) (hrunning : (e.advance (ι seconds)).1.simulation.running = true)
      (hrest : Paced ι (e.advance (ι seconds)).1 frames ticks e') :
    Paced ι e (seconds :: frames) (e.advanceTicks (ι seconds) + ticks) e'

theorem Paced.takes (hι : ExactField ι) {e e' : Engine α} {frames : List ℝ} {ticks : ℕ}
    (h : Paced ι e frames ticks e') {before : ℝ} (hbefore : e.Pending ι before) :
    ∃ after, e'.Pending ι after ∧ Takes ticks (before + frames.sum) after := by
  induction h generalizing before with
  | nil e =>
    rw [List.sum_nil, add_zero]
    exact ⟨before, hbefore, takes_zero before⟩
  | cons hpos huncapped hrunning hrest ih =>
    obtain ⟨e₁, between, hadvance, hpending, -, -, hfirst⟩ := advance_takes hι hbefore (ι _)
    rw [hadvance] at hrunning ih
    obtain ⟨after, hafter, hlater⟩ := ih hpending
    refine ⟨after, hafter, ?_⟩
    rw [List.sum_cons, ← add_assoc]
    exact ((hfirst _ rfl hpos huncapped hrunning).add_right _).trans hlater

/-! ## Runs -/

/-- Only frames and loads change the time that is pending. -/
theorem step_elapsed {e e' : Engine α} (he : e.viewport.InOrder) {op : Operation α} {reply : Reply α}
    (hstep : e.step op = .ok (e', reply)) :
    e'.elapsed = e.elapsed ∨ e'.elapsed = 0.0 ∨ ∃ seconds, e' = (e.advance seconds).1 := by
  by_cases hlooks : op.looks = true
  · obtain ⟨l, reply', hlook, -⟩ := e.step_of_looks he op hlooks
    rw [hstep] at hlook
    cases hlook
    exact Or.inl rfl
  cases op with
  | load graph => cases hstep; exact Or.inr (Or.inl (load_elapsed graph e))
  | setLayout mode => cases hstep; exact Or.inl rfl
  | setRoot root => cases hstep; exact Or.inl rfl
  | resize size =>
    cases hstep
    obtain ⟨viewport, simulation, hframe⟩ := e.resize_frame size
    have helapsed := congrArg Engine.elapsed hframe
    exact Or.inl helapsed
  | advance seconds => cases hstep; exact Or.inr (Or.inr ⟨seconds, rfl⟩)
  | settle limit =>
    cases hstep
    obtain ⟨model, simulation, hframe⟩ := settleFrom_frame 0 limit e
    have helapsed := congrArg Engine.elapsed hframe
    exact Or.inl helapsed
  | beginDrag screen =>
    cases hstep
    obtain ⟨held, hframe⟩ := e.beginDrag_frame screen
    have helapsed := congrArg Engine.elapsed hframe
    exact Or.inl helapsed
  | dragTo node screen => cases hstep; exact Or.inl rfl
  | endDrag node => cases hstep; exact Or.inl rfl
  | _ => exact absurd rfl hlooks

theorem run_pending (hι : ExactField ι) {e e' : Engine α} (he : e.viewport.InOrder) {rest : ℝ}
    (hrest : e.Pending ι rest) {ops : List (Operation α)} {replies : List (Reply α)}
    (hrun : e.run ops = .ok (e', replies)) : ∃ rest', e'.Pending ι rest' := by
  refine (run_history (fun _ _ met => met.viewport.InOrder ∧ ∃ rest', met.Pending ι rest') ⟨he, rest, hrest⟩ ?_ hrun).2
  rintro past replies met met' op reply - ⟨hmet, rest', hpending⟩ hstep
  refine ⟨step_inOrder hmet hstep, ?_⟩
  rcases step_elapsed hmet hstep with hsame | hzero | ⟨seconds, rfl⟩
  · exact ⟨rest', hsame.trans hpending.elapsed, hpending.mem⟩
  · exact ⟨0, hzero.trans hι.zero, le_rfl, tickThreshold_pos⟩
  · obtain ⟨e₁, after, hadvance, hafter, -⟩ := advance_takes hι hpending seconds
    rw [hadvance]
    exact ⟨after, hafter⟩

/-- From every engine that a run leaves, and without rounding, a frame runs at most as many ticks as the settings allow,
each of a running simulation, and answers whether the simulation still runs. Less time than makes a tick due is left
over. Any number of frames, none of them capped, after which the simulation still runs, take as many ticks as their time
and what was left over before them account for, to within the tolerance of a tick. -/
theorem run_frames_keep_time (hι : ExactField ι) (settings : Settings α) (ops : List (Operation α)) :
    ∃ e replies before, (ofSettings settings).run ops = .ok (e, replies) ∧ e.elapsed = ι before ∧
      (∀ seconds, ∃ e' after, e.advance seconds = (e', e'.simulation.running) ∧
        e.advanceTicks seconds ≤ settings.sanitized.simulation.maxTicksPerFrame ∧
        RunningTicks (e.advanceTicks seconds) e.moving e'.moving ∧
        e'.elapsed = ι after ∧ 0 ≤ after ∧ after < 0.999 * tickSeconds) ∧
      ∀ frames ticks e', Paced ι e frames ticks e' →
        0.999 * ticks * tickSeconds ≤ before + frames.sum ∧
          before + frames.sum < (ticks + 0.999) * tickSeconds := by
  have horder : (0.1 : α) ≤ 4.0 := by
    rw [hι.literal, hι.literal, hι.le_iff]
    norm_num
  have hstart := ofSettings_inOrder horder settings
  obtain ⟨e, replies, hrun, hmoves⟩ := run_moves ops (ofSettings settings) hstart
  have hsettings : e.settings = settings.sanitized :=
    preserved_along (·.settings = _) (fun hmove he => hmove.settings.trans he) hmoves rfl
  obtain ⟨before, hbefore⟩ := run_pending hι hstart ⟨hι.zero, le_rfl, tickThreshold_pos⟩ hrun
  refine ⟨e, replies, before, hrun, hbefore.elapsed, fun seconds => ?_, fun frames ticks e' hpaced => ?_⟩
  · obtain ⟨e', after, hadvance, hafter, hle, hticks, -⟩ := advance_takes hι hbefore seconds
    exact ⟨e', after, hadvance, hsettings ▸ hle, hticks, hafter.elapsed, hafter.mem.1,
      hafter.mem.2.trans_eq tickThreshold_real⟩
  · obtain ⟨after, hafter, htakes⟩ := hpaced.takes hι hbefore
    obtain ⟨hleast, hmost⟩ := htakes
    obtain ⟨hnonneg, hlt⟩ := hafter.mem
    rw [tickThreshold_real] at hleast hlt
    constructor <;> linarith

/-! ## Two frames after a load -/

theorem tick_simulation {e : Engine α} (h : e.simulation.running = true) :
    e.tick.simulation =
      let alpha := e.simulation.alpha + (e.simulation.alphaTarget - e.simulation.alpha) * e.simulation.alphaDecay
      { e.simulation with alpha := alpha, running := !decide (alpha < e.simulation.alphaMin) } := by
  unfold tick Simulation.tick
  rw [if_pos h]

/-- The first two ticks after a load do not bring the simulation to rest. -/
theorem load_ticks_running (graph : GraphSpec) :
    let e : Engine ℝ := (ofSettings .standard).load graph
    e.tick.simulation.running = true ∧ e.tick.tick.simulation.running = true := by
  intro e
  have hfirst : e.tick.simulation.running = true := by
    change (!decide ((clamp 0.0 1.0 1.0 + (0.0 - clamp 0.0 1.0 1.0) * clamp 1e-4 1.0 0.022762775 : ℝ) <
      clamp 1e-6 0.5 0.001)) = true
    norm_num [clamp]
  refine ⟨hfirst, ?_⟩
  rw [tick_simulation hfirst, tick_simulation (show e.simulation.running = true from rfl)]
  change (!decide ((clamp 0.0 1.0 1.0 + (0.0 - clamp 0.0 1.0 1.0) * clamp 1e-4 1.0 0.022762775 : ℝ) +
    (0.0 - (clamp 0.0 1.0 1.0 + (0.0 - clamp 0.0 1.0 1.0) * clamp 1e-4 1.0 0.022762775 : ℝ)) *
      clamp 1e-4 1.0 0.022762775 < clamp 1e-6 0.5 0.001)) = true
  norm_num [clamp]

/-- A frame in which one tick is due and the simulation still runs keeps the time that the tick does not take. -/
theorem advance_one_tick {e : Engine ℝ} (seconds : ℝ) {before : ℝ} (helapsed : e.elapsed = before) (hpos : 0 < seconds)
    (hlimit : e.settings.simulation.maxTicksPerFrame = 4) (hrunning : e.simulation.running = true)
    (hstill : e.tick.simulation.running = true) (hdue : tickThreshold ≤ before + seconds)
    (hless : before + seconds < tickThreshold + tickSeconds) :
    e.advanceTicks seconds = 1 ∧
      (e.advance seconds).1 = { e.tick with elapsed := max (before + seconds - tickSeconds) 0 } := by
  have hframe : (e.inFrame seconds).elapsed = before + seconds := by
    refine (inFrame_elapsed exactField_real helapsed seconds).trans (min_eq_left ?_)
    rw [hlimit]
    norm_num [tickThreshold_real, tickSeconds_real] at hless ⊢
    linarith
  have hdue' : tickThreshold ≤ (e.inFrame seconds).elapsed := hframe ▸ hdue
  have hstill' : (e.inFrame seconds).dueTick.simulation.running = true := hstill
  have hleft : (e.inFrame seconds).dueTick.elapsed = max (before + seconds - tickSeconds) 0 :=
    dueTick_elapsed exactField_real hframe
  have hover : ¬ tickThreshold ≤ (e.inFrame seconds).dueTick.elapsed := by
    rw [hleft, not_le]
    exact max_lt (by linarith) tickThreshold_pos
  rcases advance_cases exactField_real seconds e with ⟨hrests, -⟩ | ⟨-, hidle, -⟩ | ⟨-, -, -, -, hadvance, hticks⟩
  · rw [hrunning] at hrests
    cases hrests
  · exact absurd (hidle _ rfl) (not_le.mpr hpos)
  · rw [hadvance, hticks, hlimit, runDue_succ, ticksDue, if_pos hdue', if_pos hdue', if_pos hstill', if_pos hstill',
      runDue_succ, ticksDue, if_neg hover, if_neg hover, ← hleft]
    exact ⟨rfl, rfl⟩

/-- After a load, a frame of one and a half ticks runs one tick and leaves half a tick over. With it the next frame,
which is shorter than a tick, runs one tick as well. -/
theorem second_frame_uses_time_left_over :
    let e : Engine ℝ := (ofSettings .standard).load ⟨[.ofId "a"], []⟩
    ExactField (id : ℝ → ℝ) ∧ ∃ e', Paced id e [1.5 * tickSeconds, 0.6 * tickSeconds] 2 e' ∧
      0.999 * (2 : ℕ) * tickSeconds ≤ 0 + [1.5 * (tickSeconds : ℝ), 0.6 * tickSeconds].sum ∧
        0 + [1.5 * (tickSeconds : ℝ), 0.6 * tickSeconds].sum < ((2 : ℕ) + 0.999) * tickSeconds := by
  intro e
  obtain ⟨e₀, replies, before, hrun, helapsed, -, hpaced⟩ :=
    run_frames_keep_time exactField_real .standard [.load ⟨[.ofId "a"], []⟩]
  obtain rfl : e = e₀ := by
    cases hrun
    rfl
  obtain rfl : before = 0 := helapsed.symm.trans zero_real
  obtain ⟨hfirst, hsecond⟩ := load_ticks_running ⟨[.ofId "a"], []⟩
  obtain ⟨hticks, hleft⟩ := advance_one_tick (e := e) (1.5 * tickSeconds) helapsed (by norm_num [tickSeconds_real]) rfl
    rfl hfirst (by norm_num [tickThreshold_real, tickSeconds_real]) (by norm_num [tickThreshold_real, tickSeconds_real])
  let e₁ := (e.advance (1.5 * tickSeconds)).1
  have hrunning : e₁.simulation.running = true := (congrArg (·.simulation.running) hleft).trans hfirst
  have hlimit : e₁.settings.simulation.maxTicksPerFrame = 4 :=
    congrArg (·.settings.simulation.maxTicksPerFrame) hleft
  have hstill : e₁.tick.simulation.running = true := (congrArg (·.tick.simulation.running) hleft).trans hsecond
  obtain ⟨hticks', hleft'⟩ := advance_one_tick (e := e₁) (0.6 * tickSeconds) (congrArg elapsed hleft)
    (by norm_num [tickSeconds_real]) hlimit hrunning hstill (by norm_num [tickThreshold_real, tickSeconds_real])
    (by norm_num [tickThreshold_real, tickSeconds_real])
  have hframes : Paced id e [1.5 * tickSeconds, 0.6 * tickSeconds]
      (e.advanceTicks (1.5 * tickSeconds) + (e₁.advanceTicks (0.6 * tickSeconds) + 0))
      (e₁.advance (0.6 * tickSeconds)).1 := by
    refine .cons (by norm_num [tickSeconds_real]) (Or.inr (hticks.trans_lt (by decide))) hrunning
      (.cons (by norm_num [tickSeconds_real]) (Or.inr ?_) ?_ (.nil _))
    · exact (hticks'.trans_lt (by decide)).trans_eq hlimit.symm
    · exact (congrArg (·.simulation.running) hleft').trans hstill
  rw [hticks, hticks'] at hframes
  exact ⟨exactField_real, _, hframes, hpaced _ _ _ hframes⟩

end Engine

end CallAtlas
