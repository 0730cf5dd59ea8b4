import CallAtlas.Proofs.Viewer.Run
import CallAtlas.Session.Loads

/-! Loads are taken in the order of their start, each at most once.

The loads that a session waits for and those it has taken are together all loads that were started, the latest first
(`InStep.accounted`). What loads do leaves that as it is (`Works.inStep`), hearing the user may start one more
(`hear_inStep`), and asking moves the one awaited to those taken (`ask_inStep`). -/

namespace CallAtlas

set_option autoImplicit false

variable {α : Type}

/-- All loads whose delivery the session still holds out for, wherever it keeps them. -/
def Session.receivers (s : Session α) : List ℕ :=
  (match s.stage with
    | .loading load => [load]
    | _ => []) ++ s.reload.toList

/-- The stage that the delivery of a load leads to. -/
inductive Stage.Shows : Stage α → Load → Prop where
  | graph {viewer : Viewer α} {graph : GraphSpec} (h : viewer.engine.model.graph = .ofSpec graph) :
    Shows (.ready viewer) (.sent (.ok graph))
  | failure (message : String) : Shows (.failed message) (.sent (.error message))
  | lost : Shows (.failed Session.lostMessage) .stopped

theorem Session.hasFailed_iff {s : Session α} : s.hasFailed = true ↔ ∃ message, s.stage = .failed message := by
  unfold Session.hasFailed
  split
  · next message hstage => simp [hstage]
  · next h => simpa using h

theorem Stage.Shows.ended {stage : Stage α} {load : Load} (h : stage.Shows load) : load ≠ .running := by
  rintro rfl
  cases h

namespace LoadingSession

/-! ## What loads do -/

/-- Loads have gone on: those that had ended are as they were. -/
structure Works (s s' : LoadingSession α) : Prop where
  session : s'.session = s.session
  taken : s'.taken = s.taken
  length : s'.loads.length = s.loads.length
  ended : ∀ {k : ℕ} {load : Load}, s.loads[k]? = some load → load ≠ .running → s'.loads[k]? = some load

theorem Works.refl (s : LoadingSession α) : Works s s := ⟨rfl, rfl, rfl, fun h _ => h⟩

theorem Works.trans {s s' s'' : LoadingSession α} (h : Works s s') (h' : Works s' s'') : Works s s'' :=
  ⟨h'.session.trans h.session, h'.taken.trans h.taken, h'.length.trans h.length,
    fun hload hended => h'.ended (h.ended hload hended) hended⟩

theorem Works.running {s s' : LoadingSession α} (h : Works s s') {k : ℕ} {load : Load} (hload : s.loads[k]? = some load)
    (hrunning : s'.loads[k]? = some .running) : load = .running := by
  by_contra hended
  have hstill := h.ended hload hended
  rw [hrunning, Option.some.injEq] at hstill
  exact hended hstill.symm

theorem finish_works (load : ℕ) (as : Load) (s : LoadingSession α) : Works s (s.finish load as) := by
  unfold finish
  split
  · next hrunning =>
    refine ⟨rfl, rfl, List.length_set, fun {k other} hk hended => ?_⟩
    have hne : load ≠ k := by
      rintro rfl
      rw [hrunning, Option.some.injEq] at hk
      exact hended hk.symm
    exact (List.getElem?_set_ne hne).trans hk
  · exact .refl s

theorem work_works (event : LoadEvent) (s : LoadingSession α) : Works s (s.work event) := by
  cases event with
  | send load outcome => exact s.finish_works load (.sent outcome)
  | stop load => exact s.finish_works load .stopped

theorem foldl_work_works (events : List LoadEvent) (s : LoadingSession α) : Works s (events.foldl work s) := by
  induction events generalizing s with
  | nil => exact .refl s
  | cons event events ih => exact (s.work_works event).trans (ih _)

variable [Scalar α]

/-! ## The account of loads -/

structure InStep (s : LoadingSession α) : Prop where
  counted : s.loads.length = s.session.started
  accounted : s.session.receivers ++ s.taken = (List.range s.session.started).reverse
  reloads : s.session.reload.isSome → ∃ viewer, s.session.stage = .ready viewer
  /-- Unless it waits for its graph, the session shows what it has taken last. -/
  shown : (∃ k, s.session.stage = .loading k) ∨
    ∃ k rest load, s.taken = k :: rest ∧ s.loads[k]? = some load ∧ s.session.stage.Shows load
  startup : (Engine.ofSettings s.session.startup.settings).viewport.InOrder
  view : ∀ viewer, s.session.stage = .ready viewer → viewer.engine.viewport.InOrder

theorem start_inStep {startup : Startup α} (h : (Engine.ofSettings startup.settings).viewport.InOrder) :
    (start startup).InStep where
  counted := rfl
  accounted := rfl
  reloads hreload := absurd hreload Bool.false_ne_true
  shown := .inl ⟨0, rfl⟩
  startup := h
  view _ hready := nomatch hready

theorem Works.inStep {s s' : LoadingSession α} (h : Works s s') (hs : s.InStep) : s'.InStep := by
  obtain ⟨hcounted, haccounted, hreloads, hshown, hstartup, hview⟩ := hs
  refine ⟨?_, ?_, ?_, ?_, ?_, ?_⟩
  · rw [h.length, h.session, hcounted]
  · rw [h.session, h.taken, haccounted]
  · rw [h.session]
    exact hreloads
  · rw [h.session, h.taken]
    refine hshown.imp_right ?_
    rintro ⟨k, rest, load, htaken, hload, hshows⟩
    exact ⟨k, rest, load, htaken, h.ended hload hshows.ended, hshows⟩
  · rw [h.session]
    exact hstartup
  · rw [h.session]
    exact hview

theorem InStep.receivers_eq {s : LoadingSession α} (hs : s.InStep) :
    s.session.receivers = s.session.awaited.toList := by
  have hnone : (∀ viewer, s.session.stage ≠ .ready viewer) → s.session.reload = none := by
    intro hstage
    rw [← Option.not_isSome_iff_eq_none]
    intro hreload
    obtain ⟨viewer, h⟩ := hs.reloads hreload
    exact hstage viewer h
  unfold Session.receivers Session.awaited
  cases hstage : s.session.stage with
  | loading load => simp [hnone (by simp [hstage])]
  | ready viewer => simp
  | failed message => simp [hnone (by simp [hstage])]

theorem InStep.taken_descending {s : LoadingSession α} (hs : s.InStep) : s.taken.Pairwise (· > ·) := by
  have hall : (s.session.receivers ++ s.taken).Pairwise (· > ·) := by
    rw [hs.accounted, List.pairwise_reverse]
    exact List.pairwise_lt_range
  exact hall.sublist (List.sublist_append_right _ _)

/-! ## Hearing the user -/

/-- The session after the user was heard, with the load that this may have started. -/
def heardAs (heard : Session α) (s : LoadingSession α) : LoadingSession α :=
  { s with session := heard, loads := s.loads ++ List.replicate (heard.started - s.session.started) .running }

omit [Scalar α] in
theorem heardAs_getElem? {s : LoadingSession α} {k : ℕ} {load : Load} (h : s.loads[k]? = some load)
    (heard : Session α) : (s.heardAs heard).loads[k]? = some load :=
  (List.getElem?_append_left (List.getElem?_eq_some_iff.mp h).1).trans h

/-- A stage that waits for a graph may follow, or one that shows what the stage before has shown. -/
theorem heardAs_inStep {heard : Session α} {s : LoadingSession α} (hs : s.InStep)
    (hlater : s.session.started ≤ heard.started)
    (haccounted : heard.receivers ++ s.taken = (List.range heard.started).reverse)
    (hreloads : heard.reload.isSome → ∃ viewer, heard.stage = .ready viewer)
    (hshows : (∃ k, heard.stage = .loading k) ∨
      ∃ k rest load, s.taken = k :: rest ∧ s.loads[k]? = some load ∧ heard.stage.Shows load)
    (hstartup : heard.startup = s.session.startup)
    (hview : ∀ viewer, heard.stage = .ready viewer → viewer.engine.viewport.InOrder) :
    (s.heardAs heard).InStep := by
  refine ⟨?_, haccounted, hreloads, hshows.imp_right ?_, ?_, hview⟩
  · have hcounted := hs.counted
    simp only [heardAs, List.length_append, List.length_replicate]
    omega
  · rintro ⟨k, rest, load, htaken, hload, hload'⟩
    exact ⟨k, rest, load, htaken, heardAs_getElem? hload heard, hload'⟩
  · change (Engine.ofSettings heard.startup.settings).viewport.InOrder
    rw [hstartup]
    exact hs.startup

theorem InStep.unheard {s : LoadingSession α} (hs : s.InStep) : (s.heardAs s.session).InStep := by
  have hself : s.heardAs s.session = s := by simp [heardAs]
  rw [hself]
  exact hs

/-- Starting a load puts it before all others. -/
theorem InStep.accounted_succ {s : LoadingSession α} (hs : s.InStep) (hnone : s.session.receivers = []) :
    s.session.started :: s.taken = (List.range (s.session.started + 1)).reverse := by
  have haccounted := hs.accounted
  rw [hnone, List.nil_append] at haccounted
  rw [List.range_succ, List.reverse_append, haccounted]
  rfl

theorem InStep.receivers_of_failed {s : LoadingSession α} (hs : s.InStep) {message : String}
    (hstage : s.session.stage = .failed message) : s.session.receivers = [] := by
  rw [hs.receivers_eq, Session.awaited, hstage]
  rfl

theorem retry_inStep {s : LoadingSession α} (hs : s.InStep) {message : String}
    (hstage : s.session.stage = .failed message) : (s.heardAs s.session.retry).InStep := by
  have hnone := hs.receivers_of_failed hstage
  have hreload : s.session.reload = none := by simpa [Session.receivers, hstage] using hnone
  refine heardAs_inStep hs (Nat.le_succ _) ?_ ?_ (.inl ⟨_, rfl⟩) rfl fun _ hready => nomatch hready
  · refine Eq.trans ?_ (hs.accounted_succ hnone)
    simp [Session.retry, Session.receivers, hreload]
  · simp [Session.retry, hreload]

theorem requestReload_inStep {s : LoadingSession α} (hs : s.InStep) {viewer : Viewer α}
    (hstage : s.session.stage = .ready viewer) :
    (s.heardAs s.session.requestReload).InStep ∧
      (s.session.receivers = [] ∨ s.session.requestReload.receivers = s.session.receivers) := by
  unfold Session.requestReload
  split
  · next hreload =>
    rw [Option.isNone_iff_eq_none] at hreload
    have hnone : s.session.receivers = [] := by simp [Session.receivers, hstage, hreload]
    have hshown := hs.shown.resolve_left (by simp [hstage])
    refine ⟨heardAs_inStep hs (Nat.le_succ _) ?_ (fun _ => ⟨viewer, hstage⟩) (.inr hshown) rfl hs.view, .inl hnone⟩
    refine Eq.trans ?_ (hs.accounted_succ hnone)
    simp [Session.receivers, hstage]
  · exact ⟨hs.unheard, .inr rfl⟩

/-- A frame of the viewer changes neither the graph nor the account of loads. -/
theorem InStep.viewed {s : LoadingSession α} (hs : s.InStep) {v w : Viewer α} (hstage : s.session.stage = .ready v)
    (hgraph : w.engine.model.graph = v.engine.model.graph) (hview : w.engine.viewport.InOrder) :
    InStep { s with session := { s.session with stage := .ready w } } := by
  obtain ⟨hcounted, haccounted, hreloads, hshown, hstartup, -⟩ := hs
  refine ⟨hcounted, ?_, fun _ => ⟨w, rfl⟩, .inr ?_, hstartup, ?_⟩
  · rw [← haccounted]
    simp [Session.receivers, hstage]
  · obtain ⟨k, rest, load, htaken, hload, hshows⟩ := hshown.resolve_left (by simp [hstage])
    refine ⟨k, rest, load, htaken, hload, ?_⟩
    rw [hstage] at hshows
    cases hshows with
    | graph h => exact .graph (hgraph.trans h)
  · intro viewer hready
    cases hready
    exact hview

/-- Hearing the user never fails, and whoever is waited for stays so. -/
theorem hear_inStep (input : SessionInput α) {s : LoadingSession α} (hs : s.InStep) :
    ∃ heard, s.session.hear input = .ok heard ∧ (s.heardAs heard).InStep ∧
      (s.session.receivers = [] ∨ heard.receivers = s.session.receivers) := by
  unfold Session.hear
  cases hstage : s.session.stage with
  | loading load => exact ⟨s.session, rfl, hs.unheard, .inr rfl⟩
  | failed message =>
    refine ⟨_, rfl, ?_, .inl (hs.receivers_of_failed hstage)⟩
    split
    · exact retry_inStep hs hstage
    · exact hs.unheard
  | ready v =>
    -- The frame comes first and leaves the account alone, so that a reload starts from the account as it was.
    have hview := hs.view v hstage
    obtain ⟨w, -, hframe, hworked⟩ :=
      v.frame_worked { input.frame with canvas := if s.session.reload.isSome then none else input.frame.canvas } hview
    have hviewed := hs.viewed (w := w.close input.frame.closed) hstage (by rw [Viewer.close_engine, hworked.graph])
      (by rw [Viewer.close_engine]; exact Viewer.moves_inOrder hworked.moves hview)
    have hreceivers : Session.receivers { s.session with stage := .ready (w.close input.frame.closed) } =
        s.session.receivers := by simp [Session.receivers, hstage]
    simp only [hframe]
    refine ⟨_, rfl, ?_⟩
    split
    · obtain ⟨hinStep, hkept⟩ := requestReload_inStep hviewed rfl
      rw [hreceivers] at hkept
      exact ⟨hinStep, hkept⟩
    · exact ⟨hviewed.unheard, .inr hreceivers⟩

/-! ## Asking for a delivery -/

theorem viewerOf_graph (graph : GraphSpec) (s : Session α) :
    (s.viewerOf graph).engine.model.graph = .ofSpec graph := by
  unfold Session.viewerOf
  split <;> exact Engine.load_graph graph _

theorem InStep.viewerOf_inOrder {s : LoadingSession α} (hs : s.InStep) (graph : GraphSpec) :
    (s.session.viewerOf graph).engine.viewport.InOrder := by
  unfold Session.viewerOf
  split
  · next viewer hstage => exact hs.view viewer hstage
  · exact Viewer.moves_inOrder (Viewer.start_moves _ _) hs.startup

theorem take_shows {load : Load} (hended : load ≠ .running) (s : Session α) :
    (s.take load.delivery).stage.Shows load ∧ (s.take load.delivery).receivers = [] := by
  cases load with
  | running => exact absurd rfl hended
  | sent outcome =>
    cases outcome with
    | ok graph => exact ⟨.graph (viewerOf_graph graph s), rfl⟩
    | error message => exact ⟨.failure message, rfl⟩
  | stopped => exact ⟨.lost, rfl⟩

theorem take_started (delivery : Delivery) (s : Session α) : (s.take delivery).started = s.started := by
  unfold Session.take
  split <;> rfl

theorem take_startup (delivery : Delivery) (s : Session α) : (s.take delivery).startup = s.startup := by
  unfold Session.take
  split <;> rfl

/-- One more delivery has been taken. The session shows what it was and waits for nothing. -/
structure Takes (s : LoadingSession α) (k : ℕ) (s' : LoadingSession α) : Prop where
  taken : s'.taken = k :: s.taken
  shown : ∃ load, s'.loads[k]? = some load ∧ s'.session.stage.Shows load
  done : s'.session.receivers = []

theorem InStep.lt_of_mem_receivers {s : LoadingSession α} (hs : s.InStep) {k : ℕ} (hk : k ∈ s.session.receivers) :
    k < s.loads.length := by
  have hmem : k ∈ (List.range s.session.started).reverse := by
    rw [← hs.accounted]
    exact List.mem_append_left _ hk
  rw [hs.counted]
  simpa using hmem

/-- The load that is waited for has not been taken, and there is word of it. -/
theorem InStep.inbox_eq {s : LoadingSession α} (hs : s.InStep) {k : ℕ} (hk : s.session.receivers = [k]) :
    ∃ load, s.loads[k]? = some load ∧ s.inbox k = load.delivery := by
  have haccounted : k :: s.taken = (List.range s.session.started).reverse := by
    rw [← hs.accounted, hk]
    rfl
  have hlt : k < s.loads.length := hs.lt_of_mem_receivers (hk ▸ List.mem_cons_self)
  have hnew : k ∉ s.taken := by
    have hnodup : (k :: s.taken).Nodup := haccounted ▸ List.nodup_reverse.mpr List.nodup_range
    exact (List.nodup_cons.mp hnodup).1
  exact ⟨s.loads[k], List.getElem?_eq_getElem hlt, by simp [inbox, hnew, hlt]⟩

theorem InStep.take {s : LoadingSession α} (hs : s.InStep) {k : ℕ} (hk : s.session.receivers = [k]) {load : Load}
    (hload : s.loads[k]? = some load) (hended : load ≠ .running) :
    InStep { s with session := s.session.take load.delivery, taken := k :: s.taken } := by
  obtain ⟨hshows, hdone⟩ := take_shows hended s.session
  refine ⟨?_, ?_, ?_, .inr ⟨k, s.taken, load, rfl, hload, hshows⟩, ?_, ?_⟩
  · change s.loads.length = (s.session.take load.delivery).started
    rw [take_started, hs.counted]
  · change (s.session.take load.delivery).receivers ++ k :: s.taken =
      (List.range (s.session.take load.delivery).started).reverse
    rw [hdone, take_started, ← hs.accounted, hk]
    rfl
  · intro hreload
    have hnone : (s.session.take load.delivery).reload = none := by
      simpa using (List.append_eq_nil_iff.mp hdone).2
    rw [hnone] at hreload
    cases hreload
  · rw [take_startup]
    exact hs.startup
  · intro viewer hready
    change (s.session.take load.delivery).stage = .ready viewer at hready
    rw [hready] at hshows
    cases hshows with
    | graph h =>
      cases hready
      exact hs.viewerOf_inOrder _

theorem ask_inStep {s : LoadingSession α} (hs : s.InStep) :
    s.ask.InStep ∧ ((s.ask = s ∧ ∀ k ∈ s.session.receivers, s.loads[k]? = some .running) ∨
      ∃ k, s.session.receivers = [k] ∧ s.Takes k s.ask) := by
  have hreceivers := hs.receivers_eq
  cases hawaited : s.session.awaited with
  | none =>
    have hask : s.ask = s := by rw [ask, hawaited]
    rw [hawaited] at hreceivers
    rw [hask, hreceivers]
    exact ⟨hs, .inl ⟨rfl, nofun⟩⟩
  | some k =>
    rw [hawaited] at hreceivers
    obtain ⟨load, hload, hinbox⟩ := hs.inbox_eq hreceivers
    by_cases hended : load = .running
    · subst hended
      have hask : s.ask = s := by
        simp only [ask, hawaited, hinbox, Load.delivery]
      rw [hask, hreceivers]
      refine ⟨hs, .inl ⟨rfl, fun j hj => ?_⟩⟩
      rw [List.mem_singleton.mp hj]
      exact hload
    · have hask : s.ask = { s with session := s.session.take load.delivery, taken := k :: s.taken } := by
        simp only [ask, hawaited, hinbox]
        cases load with
        | running => exact absurd rfl hended
        | sent outcome => rfl
        | stopped => rfl
      obtain ⟨hshows, hdone⟩ := take_shows hended s.session
      rw [hask]
      exact ⟨hs.take hreceivers hload hended, .inr ⟨k, hreceivers, rfl, ⟨load, hload, hshows⟩, hdone⟩⟩

/-! ## Frames -/

/-- A frame takes nothing as long as the load that is waited for is running, and takes one delivery otherwise. -/
theorem frame_inStep (input : SessionInput α) (meanwhile : List LoadEvent) {s : LoadingSession α} (hs : s.InStep) :
    ∃ s', s.frame input meanwhile = .ok s' ∧ s'.InStep ∧
      ((s'.taken = s.taken ∧ ∀ k ∈ s.session.receivers, s.loads[k]? = some .running) ∨
        ∃ k, s.Takes k s' ∧ ∀ j ∈ s.session.receivers, j = k) := by
  obtain ⟨heard, hhear, hheard, hkept⟩ := hear_inStep input hs
  have hworks := foldl_work_works meanwhile (s.heardAs heard)
  have hworked := hworks.inStep hheard
  have hframe : s.frame input meanwhile = .ok
      (if s.session.hasFailed then meanwhile.foldl work (s.heardAs heard)
        else (meanwhile.foldl work (s.heardAs heard)).ask) := by
    rw [frame, hhear]
    rfl
  have hwaits : ∀ j ∈ s.session.receivers, j ∈ (meanwhile.foldl work (s.heardAs heard)).session.receivers := by
    intro j hj
    rw [hworks.session]
    rcases hkept with hnone | hsame
    · rw [hnone] at hj
      cases hj
    · exact hsame ▸ hj
  refine ⟨_, hframe, ?_⟩
  split
  · next hfailed =>
    obtain ⟨message, hstage⟩ := Session.hasFailed_iff.mp hfailed
    rw [hs.receivers_of_failed hstage]
    exact ⟨hworked, .inl ⟨hworks.taken, nofun⟩⟩
  · obtain ⟨hasked, ⟨hask, hrunning⟩ | ⟨k, hk, htakes⟩⟩ := ask_inStep hworked
    · -- What is still running when asked was running when the frame began.
      refine ⟨hasked, .inl ⟨hask.symm ▸ hworks.taken, fun j hj => ?_⟩⟩
      have hlt := hs.lt_of_mem_receivers hj
      have hload : s.loads[j]? = some s.loads[j] := List.getElem?_eq_getElem hlt
      rw [hload, hworks.running (heardAs_getElem? hload heard) (hrunning j (hwaits j hj))]
    · refine ⟨hasked, .inr ⟨k, ⟨hworks.taken ▸ htakes.taken, htakes.shown, htakes.done⟩, fun j hj => ?_⟩⟩
      have hmem := hwaits j hj
      rw [hk] at hmem
      exact List.mem_singleton.mp hmem

theorem step_inStep (event : LoadingEvent α) {s : LoadingSession α} (hs : s.InStep) :
    ∃ s', s.step event = .ok s' ∧ s'.InStep := by
  cases event with
  | load event => exact ⟨_, rfl, (s.work_works event).inStep hs⟩
  | frame input meanwhile =>
    obtain ⟨s', hframe, hs', -⟩ := frame_inStep input meanwhile hs
    exact ⟨s', hframe, hs'⟩

/-- Whatever order loads end in and whatever the user does, a session waits for at most one load, for none after a
failure and for a reload only beside a graph. All loads but that one have been taken, once and in the order of their
start, and the latest of them is what is shown. A frame takes the delivery of the load that is waited for, if that has
ended. -/
theorem run_takes_in_order (startup : Startup Float32) (events : List (LoadingEvent Float32)) :
    ∃ s, (start startup).run events = .ok s ∧
      s.session.receivers.length ≤ 1 ∧
      (∀ message, s.session.stage = .failed message → s.session.receivers = []) ∧
      (s.session.reload.isSome → ∃ viewer, s.session.stage = .ready viewer) ∧
      s.loads.length = s.session.started ∧
      s.session.receivers ++ s.taken = (List.range s.session.started).reverse ∧ s.taken.Pairwise (· > ·) ∧
      ((∃ k, s.session.stage = .loading k) ∨ ∃ k ∈ s.taken, (∀ j ∈ s.taken, j ≤ k) ∧
        ∃ load, s.loads[k]? = some load ∧ s.session.stage.Shows load) ∧
      ∀ input meanwhile, ∃ s', s.step (.frame input meanwhile) = .ok s' ∧
        (s'.taken = s.taken ∨ ∃ k, s.Takes k s') ∧
        ∀ k ∈ s.session.receivers, s.loads[k]? ≠ some .running → s.Takes k s' := by
  have hstart : (start startup).InStep := start_inStep (Engine.ofSettings_inOrder (by decide) startup.settings)
  obtain ⟨s, hrun, hs⟩ := foldlM_history step (fun _ s => InStep s) hstart
    (fun _ hs event => step_inStep event hs) events
  refine ⟨s, hrun, ?_, fun message hstage => hs.receivers_of_failed hstage, hs.reloads, hs.counted, hs.accounted,
    hs.taken_descending, ?_, ?_⟩
  · rw [hs.receivers_eq]
    exact s.session.awaited.length_toList_le
  · refine hs.shown.imp_right ?_
    rintro ⟨k, rest, load, htaken, hload⟩
    have hdescending := hs.taken_descending
    rw [htaken] at hdescending ⊢
    refine ⟨k, List.mem_cons_self, fun j hj => ?_, load, hload⟩
    rcases List.mem_cons.mp hj with rfl | hrest
    · exact le_rfl
    · exact ((List.pairwise_cons.mp hdescending).1 j hrest).le
  · intro input meanwhile
    obtain ⟨s', hframe, -, ⟨htaken, hrunning⟩ | ⟨k, htakes, honly⟩⟩ := frame_inStep input meanwhile hs
    · exact ⟨s', hframe, .inl htaken, fun k hk hended => absurd (hrunning k hk) hended⟩
    · refine ⟨s', hframe, .inr ⟨k, htakes⟩, fun j hj _ => ?_⟩
      rw [honly j hj]
      exact htakes

end LoadingSession

end CallAtlas
