import CallAtlas.Engine.Operation
import CallAtlas.Proofs.Settings.Bounds
import Mathlib

/-! What runs of the engine can do, in small pieces.

* `advance_frame` and its like: which parts of the engine an operation leaves as they are.
* `Change e e'`: one of the single changes that operations are made of, laying the graph out apart.
* `step_changes`: an operation that does not lay the graph out returns, and makes changes only.
* `run_moves`: a run returns, and is made of loads, layouts and changes, so that a property of all engines along
  it needs one lemma for each of these (`preserved_along`). -/

namespace CallAtlas

set_option autoImplicit false

variable {α : Type}

/-- Whether an operation lays the graph out. -/
def Operation.laysOut : Operation α → Bool
  | .load _ => true
  | .setLayout _ => true
  | _ => false

variable [Scalar α]

/-! ## The view -/

namespace Viewport

/-- Scale bounds in order, so that a scale can be kept between them. -/
def InOrder (v : Viewport α) : Prop := v.minScale ≤ v.maxScale

theorem clampScale_ok (v : Viewport α) (hv : v.InOrder) (scale : α) : ∃ kept, v.clampScale scale = .ok kept := by
  unfold clampScale
  split
  · exact ⟨_, rfl⟩
  · exact ⟨_, if_pos hv⟩

theorem setTransform_ok (v : Viewport α) (hv : v.InOrder) (t : Transform α) :
    ∃ t', v.setTransform t = .ok { v with transform := t' } := by
  obtain ⟨scale, hscale⟩ := v.clampScale_ok hv t.scale
  refine ⟨⟨if t.shift.isFinite then t.shift else v.transform.shift, scale⟩, ?_⟩
  rw [setTransform, hscale]
  rfl

theorem zoomAt_ok (v : Viewport α) (hv : v.InOrder) (factor : α) (anchor : Vec α) :
    ∃ t', v.zoomAt factor anchor = .ok { v with transform := t' } := by
  obtain ⟨scale, hscale⟩ := v.clampScale_ok hv (v.transform.scale * factor)
  obtain ⟨t', ht'⟩ := v.setTransform_ok hv ⟨shiftTo anchor (v.transform.invert anchor) scale, scale⟩
  refine ⟨t', ?_⟩
  rw [zoomAt, hscale]
  exact ht'

end Viewport

namespace Engine

theorem ofSettings_inOrder (h : (0.1 : α) ≤ 4.0) (settings : Settings α) :
    (ofSettings settings).viewport.InOrder :=
  settings.viewport.sanitized_scales h

/-! ## What operations leave alone -/

theorem resize_frame (size : Vec α) (e : Engine α) :
    ∃ viewport simulation, e.resize size = { e with viewport := viewport, simulation := simulation } := by
  unfold resize
  split
  · exact ⟨e.viewport, e.simulation, rfl⟩
  · exact ⟨_, _, rfl⟩

theorem runDue_frame (limit : Nat) (e : Engine α) :
    ∃ model simulation elapsed,
      (runDue limit e).1 = { e with model := model, simulation := simulation, elapsed := elapsed } := by
  induction limit generalizing e with
  | zero => exact ⟨e.model, e.simulation, e.elapsed, rfl⟩
  | succ limit ih =>
    rw [runDue]
    split
    · dsimp only
      split
      · exact ih _
      · exact ⟨_, _, _, rfl⟩
    · exact ⟨e.model, e.simulation, e.elapsed, rfl⟩

theorem advance_frame (seconds : α) (e : Engine α) :
    ∃ model simulation elapsed,
      (e.advance seconds).1 = { e with model := model, simulation := simulation, elapsed := elapsed } := by
  unfold advance
  split
  · exact ⟨e.model, e.simulation, 0.0, rfl⟩
  · split
    · exact ⟨e.model, e.simulation, e.elapsed, rfl⟩
    · exact runDue_frame _ _

theorem settleFrom_frame (count limit : Nat) (e : Engine α) :
    ∃ model simulation, (settleFrom count limit e).1 = { e with model := model, simulation := simulation } := by
  induction limit generalizing count e with
  | zero => exact ⟨e.model, e.simulation, rfl⟩
  | succ limit ih =>
    rw [settleFrom]
    split
    · exact ih (count + 1) e.tick
    · exact ⟨_, _, rfl⟩

theorem beginDrag_frame (screen : Vec α) (e : Engine α) : ∃ held, (e.beginDrag screen).1 = e.withHeld held := by
  unfold beginDrag
  split
  · split
    · exact ⟨_, rfl⟩
    · exact ⟨e.held, rfl⟩
  · exact ⟨e.held, rfl⟩

/-! ## Changes -/

/-- The single changes that operations are made of, laying the graph out apart. -/
inductive Change : Engine α → Engine α → Prop
  | root (root : Option String) (e : Engine α) : Change e (e.setRoot root)
  | search (query : String) (e : Engine α) : Change e (e.startSearch query)
  | metric (metric : String) (e : Engine α) : Change e (e.setMetric metric)
  | resize (size : Vec α) (e : Engine α) :
    Change e { e with
      viewport := e.viewport.resize size
      simulation := e.simulation.retarget (e.viewport.resize size).center }
  | look (t : Transform α) (e : Engine α) : Change e { e with viewport := { e.viewport with transform := t } }
  | wait (elapsed : α) (e : Engine α) : Change e { e with elapsed := elapsed }
  | tick (e : Engine α) : Change e e.tick
  | grab {screen : Vec α} {node : Nat} {held : Held α} {e : Engine α} (hnode : e.nodeAt screen = some node)
      (hbegin : e.held.begin node (e.transform.invert screen) e.mode.isSimulated = some held) :
    Change e (e.withHeld held)
  | drag (node : Nat) (screen : Vec α) (e : Engine α) : Change e (e.dragTo node screen)
  | drop (node : Nat) (e : Engine α) : Change e (e.endDrag node)

/-- Any number of changes. -/
abbrev Changes : Engine α → Engine α → Prop := Relation.ReflTransGen Change

theorem resize_changes (size : Vec α) (e : Engine α) : Changes e (e.resize size) := by
  unfold resize
  split
  · exact .refl
  · exact .single (.resize size e)

theorem beginDrag_changes (screen : Vec α) (e : Engine α) : Changes e (e.beginDrag screen).1 := by
  unfold beginDrag
  split
  · next node hnode =>
    split
    · next held hbegin => exact .single (.grab hnode hbegin)
    · exact .refl
  · exact .refl

theorem changeView_changes (e : Engine α) (change : Viewport α → Except Fault (Viewport α))
    (h : ∃ t, change e.viewport = .ok { e.viewport with transform := t }) :
    ∃ e', e.changeView change = .ok e' ∧ Changes e e' := by
  obtain ⟨t, ht⟩ := h
  refine ⟨{ e with viewport := { e.viewport with transform := t } }, ?_, .single (.look t e)⟩
  rw [changeView, ht]
  rfl

theorem runDue_changes (limit : Nat) (e : Engine α) : Changes e (runDue limit e).1 := by
  induction limit generalizing e with
  | zero => exact .refl
  | succ limit ih =>
    rw [runDue]
    split
    · have hwait : Changes e { e with elapsed := Scalar.larger (e.elapsed - tickSeconds) 0.0 } :=
        .single (.wait _ e)
      have hticked := hwait.tail (.tick _)
      dsimp only
      split
      · exact hticked.trans (ih _)
      · exact hticked.tail (.wait 0.0 _)
    · exact .refl

theorem advance_changes (seconds : α) (e : Engine α) : Changes e (e.advance seconds).1 := by
  unfold advance
  split
  · exact .single (.wait 0.0 e)
  · split
    · exact .refl
    · exact (Relation.ReflTransGen.single (.wait _ e)).trans (runDue_changes _ _)

theorem settleFrom_changes (count limit : Nat) (e : Engine α) : Changes e (settleFrom count limit e).1 := by
  induction limit generalizing count e with
  | zero => exact .refl
  | succ limit ih =>
    rw [settleFrom]
    split
    · exact (Relation.ReflTransGen.single (.tick e)).trans (ih (count + 1) e.tick)
    · exact .single (.tick e)

theorem focusNode_changes (id : String) (e : Engine α) (he : e.viewport.InOrder) :
    ∃ e' found, e.focusNode id = .ok (e', found) ∧ Changes e e' := by
  unfold focusNode
  split
  · next i hi =>
    obtain ⟨e', he', hchanges⟩ :=
      e.changeView_changes (Viewport.focus (e.model.bodies.get i).pos) (e.viewport.setTransform_ok he _)
    refine ⟨e', true, ?_, hchanges⟩
    rw [he']
    rfl
  · exact ⟨e, false, rfl, .refl⟩

/-- An operation that does not lay the graph out returns, and makes changes only. -/
theorem step_changes (e : Engine α) (he : e.viewport.InOrder) (op : Operation α) (hop : op.laysOut = false) :
    ∃ e' reply, e.step op = .ok (e', reply) ∧ Changes e e' := by
  -- The operations on the view can fail in principle; all others return by definition.
  have hview : ∀ change : Viewport α → Except Fault (Viewport α),
      (∃ t, change e.viewport = .ok { e.viewport with transform := t }) →
      ∃ e' reply, (do pure (← e.changeView change, Reply.done) : Except Fault (Engine α × Reply α)) = .ok (e', reply) ∧
        Changes e e' := by
    intro change hchange
    obtain ⟨e', he', hchanges⟩ := e.changeView_changes change hchange
    exact ⟨e', .done, by rw [he']; rfl, hchanges⟩
  cases op with
  | load graph => exact absurd hop (by simp [Operation.laysOut])
  | setLayout mode => exact absurd hop (by simp [Operation.laysOut])
  | setRoot root => exact ⟨_, _, rfl, .single (.root root e)⟩
  | search query => exact ⟨_, _, rfl, .single (.search query e)⟩
  | setMetric metric => exact ⟨_, _, rfl, .single (.metric metric e)⟩
  | resize size => exact ⟨_, _, rfl, e.resize_changes size⟩
  | panBy delta => exact hview _ (e.viewport.setTransform_ok he _)
  | zoomAt factor anchor => exact hview _ (e.viewport.zoomAt_ok he factor anchor)
  | setTransform t => exact hview _ (e.viewport.setTransform_ok he t)
  | resetView => exact hview _ ⟨.identity, rfl⟩
  | focusNode id =>
    obtain ⟨e', found, he', hchanges⟩ := e.focusNode_changes id he
    refine ⟨e', .flag found, ?_, hchanges⟩
    rw [step, he']
    rfl
  | advance seconds => exact ⟨_, _, rfl, e.advance_changes seconds⟩
  | settle limit => exact ⟨_, _, rfl, settleFrom_changes 0 limit e⟩
  | beginDrag screen => exact ⟨_, _, rfl, e.beginDrag_changes screen⟩
  | dragTo node screen => exact ⟨_, _, rfl, .single (.drag node screen e)⟩
  | endDrag node => exact ⟨_, _, rfl, .single (.drop node e)⟩
  | nodeAt screen => exact ⟨_, _, rfl, .refl⟩
  | minimap => exact ⟨_, _, rfl, .refl⟩
  | render => exact ⟨_, _, rfl, .refl⟩

/-! ## Runs -/

/-- A load, a layout or a change. -/
inductive Move : Engine α → Engine α → Prop
  | load (graph : GraphSpec) (e : Engine α) : Move e (e.load graph)
  | setLayout (mode : LayoutMode) (e : Engine α) : Move e (e.setLayout mode)
  | change {e e' : Engine α} (h : Change e e') : Move e e'

/-- Any number of moves. -/
abbrev Moves : Engine α → Engine α → Prop := Relation.ReflTransGen Move

omit [Scalar α] in
/-- What single steps keep holds all along. -/
theorem preserved_along {r : Engine α → Engine α → Prop} (P : Engine α → Prop)
    (hr : ∀ {e e' : Engine α}, r e e' → P e → P e') {e e' : Engine α} (h : Relation.ReflTransGen r e e') (he : P e) :
    P e' := by
  induction h with
  | refl => exact he
  | tail _ hlast ih => exact hr hlast ih

theorem Move.settings {e e' : Engine α} (h : Move e e') : e'.settings = e.settings := by
  cases h with
  | load graph => rfl
  | setLayout mode => rfl
  | change h => cases h <;> rfl

theorem Move.inOrder {e e' : Engine α} (h : Move e e') (he : e.viewport.InOrder) : e'.viewport.InOrder := by
  cases h with
  | load graph => exact he
  | setLayout mode => exact he
  | change h => cases h <;> exact he

theorem run_cons_eq_ok {e e' : Engine α} {op : Operation α} {ops : List (Operation α)} {replies : List (Reply α)} :
    e.run (op :: ops) = .ok (e', replies) ↔
      ∃ e₁ reply rest, e.step op = .ok (e₁, reply) ∧ e₁.run ops = .ok (e', rest) ∧ replies = reply :: rest := by
  rw [run]
  constructor
  · intro h
    cases hop : e.step op with
    | error fault => rw [hop] at h; cases h
    | ok first =>
      rw [hop] at h
      cases hops : first.1.run ops with
      | error fault =>
        simp only [bind, Except.bind, hops] at h
        cases h
      | ok last =>
        simp only [bind, Except.bind, hops] at h
        cases h
        exact ⟨first.1, first.2, last.2, rfl, hops, rfl⟩
  · rintro ⟨e₁, reply, rest, hop, hops, rfl⟩
    simp only [hop, hops, bind, Except.bind, pure, Except.pure]

/-- A run of operations each of which returns and takes steps of one kind returns and takes steps of that kind. -/
theorem run_of_step {r : Engine α → Engine α → Prop} (hr : ∀ {e e' : Engine α}, r e e' → Move e e')
    (ops : List (Operation α))
    (hstep : ∀ op ∈ ops, ∀ e : Engine α, e.viewport.InOrder →
      ∃ e' reply, e.step op = .ok (e', reply) ∧ Relation.ReflTransGen r e e')
    (e : Engine α) (he : e.viewport.InOrder) :
    ∃ e' replies, e.run ops = .ok (e', replies) ∧ Relation.ReflTransGen r e e' := by
  induction ops generalizing e with
  | nil => exact ⟨e, [], rfl, .refl⟩
  | cons op ops ih =>
    obtain ⟨e₁, reply, hop, hfirst⟩ := hstep op List.mem_cons_self e he
    have he₁ : e₁.viewport.InOrder := preserved_along (·.viewport.InOrder) (fun h => (hr h).inOrder) hfirst he
    obtain ⟨e₂, replies, hops, hrest⟩ := ih (fun op' hop' => hstep op' (List.mem_cons_of_mem op hop')) e₁ he₁
    exact ⟨e₂, reply :: replies, run_cons_eq_ok.mpr ⟨e₁, reply, replies, hop, hops, rfl⟩, hfirst.trans hrest⟩

theorem run_changes (ops : List (Operation α)) (hops : ∀ op ∈ ops, op.laysOut = false) (e : Engine α)
    (he : e.viewport.InOrder) : ∃ e' replies, e.run ops = .ok (e', replies) ∧ Changes e e' :=
  run_of_step .change ops (fun op hop e he => e.step_changes he op (hops op hop)) e he

theorem run_moves (ops : List (Operation α)) (e : Engine α) (he : e.viewport.InOrder) :
    ∃ e' replies, e.run ops = .ok (e', replies) ∧ Moves e e' := by
  refine run_of_step id ops (fun op _ e he => ?_) e he
  by_cases hop : op.laysOut = false
  · obtain ⟨e', reply, hstep, hchanges⟩ := e.step_changes he op hop
    exact ⟨e', reply, hstep, hchanges.lift id fun _ _ => .change⟩
  · cases op with
    | load graph => exact ⟨_, _, rfl, .single (.load graph e)⟩
    | setLayout mode => exact ⟨_, _, rfl, .single (.setLayout mode e)⟩
    | _ => exact absurd rfl hop

/-- One run after another is the run of both lists. -/
theorem run_append {e e₁ e₂ : Engine α} {first second : List (Operation α)} {replies₁ replies₂ : List (Reply α)}
    (h₁ : e.run first = .ok (e₁, replies₁)) (h₂ : e₁.run second = .ok (e₂, replies₂)) :
    e.run (first ++ second) = .ok (e₂, replies₁ ++ replies₂) := by
  induction first generalizing e replies₁ with
  | nil =>
    cases h₁
    exact h₂
  | cons op first ih =>
    obtain ⟨e₀, reply, rest, hop, hrest, rfl⟩ := run_cons_eq_ok.mp h₁
    exact run_cons_eq_ok.mpr ⟨e₀, reply, rest ++ replies₂, hop, ih hrest, rfl⟩

end Engine

end CallAtlas
