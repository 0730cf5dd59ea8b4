import CallAtlas.Proofs.Engine.History
import CallAtlas.Proofs.Engine.Loads

/-! How a layout is looked at has no influence on the layout.

A `Look` is the part of an engine that only the view is about: the transform, the query with its matches, and the
metric. Operations that look change nothing else (`step_of_looks`), and operations on the layout do the same under
every look (`step_withLook`), so that the former can be left out of a run. -/

namespace CallAtlas

set_option autoImplicit false

variable {α : Type}

/-- Operations that only look at the layout. -/
def Operation.looks : Operation α → Bool
  | .search _ | .setMetric _ | .panBy _ | .zoomAt _ _ | .setTransform _ | .resetView | .focusNode _ => true
  | .nodeAt _ | .minimap | .render => true
  | _ => false

/-- Operations of a pointer that takes, moves and drops nodes. -/
def Operation.drags : Operation α → Bool
  | .beginDrag _ | .dragTo _ _ | .endDrag _ => true
  | _ => false

theorem Operation.drags_of_looks (op : Operation α) (h : op.looks = true) : op.drags = false := by
  cases op <;> simp [looks, drags] at h ⊢

/-- The query of an operation that searches. -/
def Operation.query? : Operation α → Option String
  | .search query => some query
  | _ => none

/-- How a layout is looked at. -/
structure Look (α : Type) where
  transform : Transform α
  search : Search
  metric : String

namespace Engine

def look (e : Engine α) : Look α := ⟨e.viewport.transform, e.search, e.metric⟩

/-- The same layout, looked at in another way. -/
def withLook (l : Look α) (e : Engine α) : Engine α :=
  { e with viewport := { e.viewport with transform := l.transform }, search := l.search, metric := l.metric }

theorem withLook_look (e : Engine α) : e.withLook e.look = e := rfl

variable [Scalar α]

/-! ## Operations on the layout -/

theorem runDue_withLook (l : Look α) (limit : ℕ) (e : Engine α) :
    runDue limit (e.withLook l) = ((runDue limit e).1.withLook l, (runDue limit e).2) := by
  induction limit generalizing e with
  | zero => rfl
  | succ limit ih =>
    rw [runDue, runDue]
    have helapsed : (e.withLook l).elapsed = e.elapsed := rfl
    rw [helapsed]
    by_cases hdue : tickThreshold ≤ e.elapsed
    · rw [if_pos hdue, if_pos hdue]
      let ticked := { e with elapsed := Scalar.larger (e.elapsed - tickSeconds) 0.0 }.tick
      change (if ticked.simulation.running then runDue limit (ticked.withLook l)
        else (({ ticked with elapsed := 0.0 } : Engine α).withLook l, false)) = _
      by_cases hrunning : ticked.simulation.running = true
      · rw [if_pos hrunning, if_pos hrunning]
        exact ih ticked
      · rw [if_neg hrunning, if_neg hrunning]
    · rw [if_neg hdue, if_neg hdue]

theorem advance_withLook (l : Look α) (seconds : α) (e : Engine α) :
    (e.withLook l).advance seconds = ((e.advance seconds).1.withLook l, (e.advance seconds).2) := by
  unfold advance
  have hsimulation : (e.withLook l).simulation = e.simulation := rfl
  rw [hsimulation]
  split
  · rfl
  · split
    · rfl
    · let limit := e.settings.simulation.maxTicksPerFrame
      exact runDue_withLook l limit
        { e with elapsed := Scalar.smaller (e.elapsed + seconds) (tickSeconds * (limit : α)) }

theorem settleFrom_withLook (l : Look α) (count limit : ℕ) (e : Engine α) :
    settleFrom count limit (e.withLook l) =
      ((settleFrom count limit e).1.withLook l, (settleFrom count limit e).2) := by
  induction limit generalizing count e with
  | zero => rfl
  | succ limit ih =>
    rw [settleFrom, settleFrom]
    have htick : (e.withLook l).tick = e.tick.withLook l := rfl
    have hsimulation : (e.tick.withLook l).simulation = e.tick.simulation := rfl
    rw [htick, hsimulation]
    split
    · exact ih (count + 1) e.tick
    · rfl

theorem resize_withLook (l : Look α) (size : Vec α) (e : Engine α) :
    (e.withLook l).resize size = (e.resize size).withLook l := by
  unfold resize
  have hsize : (e.withLook l).viewport.size = e.viewport.size := rfl
  rw [hsize]
  split <;> rfl

/-- An operation on the layout does the same to it, and gives the same answer, under every look. Only laying the graph
out may change the look. -/
theorem step_withLook (e : Engine α) (op : Operation α) (hlooks : op.looks = false) (hdrags : op.drags = false)
    (l : Look α) :
    ∃ e' reply l', e.step op = .ok (e', reply) ∧ (e.withLook l).step op = .ok (e'.withLook l', reply) ∧
      (op.laysOut = false → l' = l) := by
  cases op with
  | load graph => exact ⟨_, _, { l with search := l.search.refresh (.ofSpec graph) }, rfl, rfl, nofun⟩
  | setLayout mode => exact ⟨_, _, l, rfl, rfl, nofun⟩
  | setRoot root => exact ⟨_, _, l, rfl, rfl, fun _ => rfl⟩
  | resize size =>
    refine ⟨_, _, l, rfl, ?_, fun _ => rfl⟩
    rw [step, resize_withLook]
    rfl
  | advance seconds =>
    refine ⟨_, _, l, rfl, ?_, fun _ => rfl⟩
    rw [step, advance_withLook]
    rfl
  | settle limit =>
    refine ⟨_, _, l, rfl, ?_, fun _ => rfl⟩
    rw [step, settle, settleFrom_withLook]
    rfl
  | beginDrag screen => exact absurd hdrags (by simp [Operation.drags])
  | dragTo node screen => exact absurd hdrags (by simp [Operation.drags])
  | endDrag node => exact absurd hdrags (by simp [Operation.drags])
  | _ => exact absurd hlooks (by simp [Operation.looks])

/-! ## Operations that look -/

omit [Scalar α] in
theorem changeView_withLook (e : Engine α) (change : Viewport α → Except Fault (Viewport α))
    (h : ∃ t, change e.viewport = .ok { e.viewport with transform := t }) :
    ∃ t, e.changeView change = .ok (e.withLook { e.look with transform := t }) := by
  obtain ⟨t, ht⟩ := h
  refine ⟨t, ?_⟩
  rw [changeView, ht]
  rfl

theorem focusNode_withLook (id : String) (e : Engine α) (he : e.viewport.InOrder) :
    ∃ t found, e.focusNode id = .ok (e.withLook { e.look with transform := t }, found) := by
  unfold focusNode
  split
  · next i _ =>
    obtain ⟨t, ht⟩ :=
      e.changeView_withLook (Viewport.focus (e.model.bodies.get i).pos) (e.viewport.setTransform_ok he _)
    refine ⟨t, true, ?_⟩
    rw [ht]
    rfl
  · exact ⟨e.transform, false, rfl⟩

/-- An operation that looks returns, and changes how the layout is looked at, if anything. Only a search changes the
query. -/
theorem step_of_looks (e : Engine α) (he : e.viewport.InOrder) (op : Operation α) (hlooks : op.looks = true) :
    ∃ l reply, e.step op = .ok (e.withLook l, reply) ∧ (op.query? = none → l.search = e.search) := by
  have hview : ∀ change : Viewport α → Except Fault (Viewport α),
      (∃ t, change e.viewport = .ok { e.viewport with transform := t }) →
      ∃ l reply, (do pure (← e.changeView change, Reply.done) : Except Fault (Engine α × Reply α)) =
        .ok (e.withLook l, reply) ∧ l.search = e.search := by
    intro change hchange
    obtain ⟨t, ht⟩ := e.changeView_withLook change hchange
    exact ⟨{ e.look with transform := t }, .done, by rw [ht]; rfl, rfl⟩
  have hquiet : ∀ {result : Except Fault (Engine α × Reply α)},
      (∃ l reply, result = .ok (e.withLook l, reply) ∧ l.search = e.search) →
      ∃ l reply, result = .ok (e.withLook l, reply) ∧ (op.query? = none → l.search = e.search) :=
    fun ⟨l, reply, hl, hsearch⟩ => ⟨l, reply, hl, fun _ => hsearch⟩
  cases op with
  | search query => exact ⟨{ e.look with search := .start e.model.graph query }, _, rfl, nofun⟩
  | setMetric metric => exact ⟨{ e.look with metric := metric }, _, rfl, fun _ => rfl⟩
  | panBy delta => exact hquiet (hview _ (e.viewport.setTransform_ok he _))
  | zoomAt factor anchor => exact hquiet (hview _ (e.viewport.zoomAt_ok he factor anchor))
  | setTransform t => exact hquiet (hview _ (e.viewport.setTransform_ok he t))
  | resetView => exact hquiet (hview _ ⟨.identity, rfl⟩)
  | focusNode id =>
    obtain ⟨t, found, ht⟩ := e.focusNode_withLook id he
    refine ⟨{ e.look with transform := t }, .flag found, ?_, fun _ => rfl⟩
    rw [step, ht]
    rfl
  | nodeAt screen => exact ⟨e.look, _, rfl, fun _ => rfl⟩
  | minimap => exact ⟨e.look, _, rfl, fun _ => rfl⟩
  | render => exact ⟨e.look, _, rfl, fun _ => rfl⟩
  | _ => exact absurd hlooks (by simp [Operation.looks])

/-! ## Runs -/

/-- The answers to those operations of a run that do not look. -/
def layoutReplies (ops : List (Operation α)) (replies : List (Reply α)) : List (Reply α) :=
  ((ops.zip replies).filter fun answered => !answered.1.looks).map (·.2)

/-- A run and the same run without looking come to the same layout, whatever look the second one starts from. -/
theorem run_withLook (ops : List (Operation α)) (hops : ∀ op ∈ ops, op.drags = false) (e : Engine α)
    (he : e.viewport.InOrder) (l : Look α) :
    ∃ e' replies l', e.run ops = .ok (e', replies) ∧ replies.length = ops.length ∧
      (e.withLook l).run (ops.filter fun op => !op.looks) = .ok (e'.withLook l', layoutReplies ops replies) := by
  induction ops generalizing e l with
  | nil => exact ⟨e, [], l, rfl, rfl, rfl⟩
  | cons op ops ih =>
    have hrest : ∀ op' ∈ ops, op'.drags = false := fun op' hop' => hops op' (List.mem_cons_of_mem op hop')
    by_cases hlooks : op.looks = true
    · obtain ⟨l₁, reply, hstep, _⟩ := e.step_of_looks he op hlooks
      -- The second run starts from the same layout as before, so its look stays `l`.
      obtain ⟨e', replies, l', hrun, hlength, hrun'⟩ := ih hrest (e.withLook l₁) he l
      refine ⟨e', reply :: replies, l', run_cons_eq_ok.mpr ⟨_, _, _, hstep, hrun, rfl⟩, ?_, ?_⟩
      · rw [List.length_cons, List.length_cons, hlength]
      · rw [List.filter_cons_of_neg (by simp [hlooks]), layoutReplies, List.zip_cons_cons,
          List.filter_cons_of_neg (by simp [hlooks])]
        exact hrun'
    · rw [Bool.not_eq_true] at hlooks
      obtain ⟨e₁, reply, l₁, hstep, hstep', _⟩ := e.step_withLook op hlooks (hops op List.mem_cons_self) l
      have he₁ : e₁.viewport.InOrder := step_inOrder he hstep
      obtain ⟨e', replies, l', hrun, hlength, hrun'⟩ := ih hrest e₁ he₁ l₁
      refine ⟨e', reply :: replies, l', run_cons_eq_ok.mpr ⟨_, _, _, hstep, hrun, rfl⟩, ?_, ?_⟩
      · rw [List.length_cons, List.length_cons, hlength]
      · rw [List.filter_cons_of_pos (by simp [hlooks]), layoutReplies, List.zip_cons_cons,
          List.filter_cons_of_pos (by simp [hlooks])]
        exact run_cons_eq_ok.mpr ⟨_, _, _, hstep', hrun', rfl⟩

/-- Leaving out of a run all operations that only look changes neither the layout at its end nor the answers to the
other operations. -/
theorem run_without_looking (settings : Settings Float32) (ops : List (Operation Float32))
    (hops : ∀ op ∈ ops, op.drags = false) :
    ∃ e replies e' replies', (ofSettings settings).run ops = .ok (e, replies) ∧ replies.length = ops.length ∧
      (ofSettings settings).run (ops.filter fun op => !op.looks) = .ok (e', replies') ∧
      e'.model = e.model ∧ e'.simulation = e.simulation ∧ e'.elapsed = e.elapsed ∧ e'.mode = e.mode ∧
      e'.root = e.root ∧ e'.drags = e.drags ∧ e'.viewport.size = e.viewport.size ∧
      replies' = layoutReplies ops replies := by
  have hstart : (ofSettings settings).viewport.InOrder := ofSettings_inOrder (by decide) settings
  obtain ⟨e, replies, l, hrun, hlength, hrun'⟩ := run_withLook ops hops _ hstart (ofSettings settings).look
  exact ⟨e, replies, e.withLook l, _, hrun, hlength, hrun', rfl, rfl, rfl, rfl, rfl, rfl, rfl, rfl⟩

/-- A graph is searched, zoomed and painted while the simulation arranges it. -/
def lookedAt : List (Operation Float32) :=
  [.load ⟨[.ofId "a", .ofId "b"], [⟨"a", "b"⟩]⟩, .search "a", .zoomAt 2.0 ⟨10.0, 10.0⟩, .advance 0.02, .focusNode "b",
    .resize ⟨800.0, 600.0⟩, .panBy ⟨5.0, 0.0⟩, .settle 2, .render, .setLayout .radial, .nodeAt ⟨400.0, 300.0⟩]

theorem lookedAt_without_looking :
    (∀ op ∈ lookedAt, op.drags = false) ∧
    ∃ e replies e' replies', (ofSettings .standard).run lookedAt = .ok (e, replies) ∧ replies.length = 11 ∧
      (ofSettings .standard).run
        [.load ⟨[.ofId "a", .ofId "b"], [⟨"a", "b"⟩]⟩, .advance 0.02, .resize ⟨800.0, 600.0⟩, .settle 2,
          .setLayout .radial] = .ok (e', replies') ∧
      e'.model = e.model ∧ e'.simulation = e.simulation ∧ e'.elapsed = e.elapsed ∧ e'.mode = e.mode ∧
      e'.root = e.root ∧ e'.drags = e.drags ∧ e'.viewport.size = e.viewport.size ∧
      replies' = layoutReplies lookedAt replies := by
  have hdrags : ∀ op ∈ lookedAt, op.drags = false := by simp [lookedAt, Operation.drags]
  exact ⟨hdrags, run_without_looking .standard lookedAt hdrags⟩

end Engine

end CallAtlas
