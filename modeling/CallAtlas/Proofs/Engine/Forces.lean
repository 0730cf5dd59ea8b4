import CallAtlas.Proofs.Engine.Drags

/-! The forces in the simulation are always those of the current layout.

`Engine.ForcesFit` spells them out for each mode. A layout installs them (`arrange_arranged`), and no change after it
disturbs them: a resize moves their center along with the viewport, and everything else leaves them alone
(`Change.arranged`). -/

namespace CallAtlas

set_option autoImplicit false

variable {α : Type} [Scalar α]

/-! ## What drags leave alone -/

namespace Held

theorem begin_frame {node : Nat} {pointer : Vec α} {simulated : Bool} {h h' : Held α}
    (hbegin : h.begin node pointer simulated = some h') :
    h'.model.graph = h.model.graph ∧ h'.simulation.forces = h.simulation.forces ∧
      (simulated = false → h'.simulation = h.simulation) := by
  obtain ⟨_, body, _, rfl⟩ := (begin_eq_some_iff node pointer simulated h h').mp hbegin
  refine ⟨Model.modifyBody_graph _ _ _, ?_, fun hsim => if_neg (by simp [hsim])⟩
  dsimp only
  split
  · unfold Held.warm
    dsimp only
    split <;> rfl
  · rfl

theorem moveTo_frame (node : Nat) (pointer : Vec α) (h : Held α) :
    (h.moveTo node pointer).model.graph = h.model.graph ∧ (h.moveTo node pointer).simulation = h.simulation := by
  unfold moveTo
  split
  · exact ⟨Model.modifyBody_graph _ _ _, rfl⟩
  · exact ⟨rfl, rfl⟩

theorem finish_frame (node : Nat) (h : Held α) :
    (h.finish node).model.graph = h.model.graph ∧ (h.finish node).simulation.forces = h.simulation.forces ∧
      (h.finish node).simulation.running = h.simulation.running := by
  unfold finish
  split
  · refine ⟨Model.modifyBody_graph _ _ _, ?_, ?_⟩ <;> dsimp only <;> split <;> rfl
  · exact ⟨rfl, rfl, rfl⟩

end Held

/-! ## Forces of a mode -/

namespace Arrangement

theorem retarget_forces (mode : LayoutMode) (simulation : SimulationSettings α) (layout : LayoutSettings α)
    (g : CallGraph) (center center' : Vec α) :
    (forces mode simulation layout g center).retarget center' = forces mode simulation layout g center' := by
  cases mode <;> rfl

theorem radii_length (layout : LayoutSettings α) (g : CallGraph) : (radii layout g).length = g.size := by
  simp [radii]

theorem radii_getElem? (layout : LayoutSettings α) (g : CallGraph) (i : Fin g.size) :
    (radii layout g)[i.val]? =
      some (((g.resolveDepths (g.resolveRoot layout.root)).get i : α) * layout.radialRingSpacing) := by
  simp [radii, Vector.get_eq_getElem]

theorem apply_graph (mode : LayoutMode) (simulation : SimulationSettings α) (layout : LayoutSettings α)
    (center : Vec α) (m : Model α) (s : Simulation α) :
    (apply mode simulation layout center m s).1.graph = m.graph := by
  unfold apply
  dsimp only
  split <;> rfl

theorem apply_forces (mode : LayoutMode) (simulation : SimulationSettings α) (layout : LayoutSettings α)
    (center : Vec α) (m : Model α) (s : Simulation α) :
    (apply mode simulation layout center m s).2.forces = forces mode simulation layout m.graph center := by
  unfold apply
  dsimp only
  split <;> rfl

end Arrangement

namespace Engine

/-- The forces that belong to the mode of an engine, with the root that the layout was made for. -/
def ForcesFit (root : Option String) (e : Engine α) : Prop :=
  match e.mode with
  | .force =>
    e.simulation.forces =
      { link := some ⟨e.settings.simulation.linkDistance⟩
        charge := some ⟨e.settings.simulation.chargeStrength, e.settings.simulation.theta⟩
        center := some ⟨e.viewport.center, e.settings.simulation.centerStrength⟩
        collision := some ⟨e.settings.simulation.collisionRadius, e.settings.simulation.collisionStrength,
          e.settings.simulation.collisionIterations⟩
        radial := none }
  | .hierarchical => e.simulation.forces = ForceSet.none ∧ e.simulation.running = false
  | .radial =>
    ∃ radii : List α,
      e.simulation.forces =
        { link := some ⟨e.settings.layout.radialLinkDistance⟩
          charge := some ⟨e.settings.simulation.chargeStrength, e.settings.simulation.theta⟩
          center := none
          collision := some ⟨e.settings.simulation.collisionRadius, e.settings.simulation.collisionStrength,
            e.settings.simulation.collisionIterations⟩
          radial := some ⟨e.viewport.center, e.settings.layout.radialStrength, radii⟩ } ∧
      radii.length = e.model.size ∧
      ∀ i : Fin e.model.graph.size,
        radii[i.val]? =
          some (((e.model.graph.resolveDepths (e.model.graph.resolveRoot root)).get i : α) *
            e.settings.layout.radialRingSpacing)

/-- The forces are those that a layout around the present center would install, and rows do not move. -/
structure Arranged (root : Option String) (e : Engine α) : Prop where
  forces : e.simulation.forces =
    Arrangement.forces e.mode e.settings.simulation { e.settings.layout with root := root } e.model.graph
      e.viewport.center
  rests : e.mode = .hierarchical → e.simulation.running = false

theorem Arranged.forcesFit {root : Option String} {e : Engine α} (h : e.Arranged root) : e.ForcesFit root := by
  have hforces := h.forces
  unfold ForcesFit
  cases hmode : e.mode with
  | force =>
    rw [hmode] at hforces
    exact hforces
  | hierarchical =>
    rw [hmode] at hforces
    exact ⟨hforces, h.rests hmode⟩
  | radial =>
    rw [hmode] at hforces
    exact ⟨_, hforces, Arrangement.radii_length _ _, Arrangement.radii_getElem? _ _⟩

/-- Whatever keeps the graph, the center and the forces, and does not wake a simulation at rest, keeps an engine
arranged. -/
theorem Arranged.of_frame {root : Option String} {e e' : Engine α} (h : e.Arranged root) (hmode : e'.mode = e.mode)
    (hsettings : e'.settings = e.settings) (hgraph : e'.model.graph = e.model.graph)
    (hcenter : e'.viewport.center = e.viewport.center) (hforces : e'.simulation.forces = e.simulation.forces)
    (hrests : e.mode = .hierarchical → e.simulation.running = false → e'.simulation.running = false) :
    e'.Arranged root := by
  refine ⟨?_, fun hrows => ?_⟩
  · rw [hforces, h.forces, hmode, hsettings, hgraph, hcenter]
  · rw [hmode] at hrows
    exact hrests hrows (h.rests hrows)

/-! ## Layouts and changes -/

theorem arrange_arranged (mode : LayoutMode) (e : Engine α) {root : Option String} (hroot : e.root = root) :
    (e.arrange mode).Arranged root := by
  subst hroot
  refine ⟨?_, ?_⟩
  · change (Arrangement.apply mode _ _ _ e.model e.simulation).2.forces =
      Arrangement.forces mode _ _ (Arrangement.apply mode _ _ _ e.model e.simulation).1.graph _
    rw [Arrangement.apply_forces, Arrangement.apply_graph]
    rfl
  · intro hmode
    have hrows : mode = .hierarchical := hmode
    subst hrows
    rfl

theorem load_arranged (graph : GraphSpec) (e : Engine α) : (e.load graph).Arranged e.root := by
  unfold load
  exact arrange_arranged _ _ rfl

theorem setLayout_arranged (mode : LayoutMode) (e : Engine α) : (e.setLayout mode).Arranged e.root := by
  unfold setLayout
  exact arrange_arranged mode _ rfl

theorem step_arranged (e : Engine α) (op : Operation α) (hop : op.laysOut = true) :
    ∃ e' reply, e.step op = .ok (e', reply) ∧ Move e e' ∧ e'.Arranged e'.root := by
  cases op with
  | load graph => exact ⟨_, _, rfl, .load graph e, load_arranged graph e⟩
  | setLayout mode => exact ⟨_, _, rfl, .setLayout mode e, setLayout_arranged mode e⟩
  | _ => exact absurd hop (by simp [Operation.laysOut])

theorem Change.graph {e e' : Engine α} (hchange : Change e e') : e'.model.graph = e.model.graph := by
  cases hchange with
  | tick => exact Simulation.tick_graph e.simulation e.model
  | grab _ hbegin => exact (Held.begin_frame hbegin).1
  | drag node screen => exact (Held.moveTo_frame node _ e.held).1
  | drop node => exact (Held.finish_frame node e.held).1
  | _ => rfl

/-- No change disturbs the forces of a layout. -/
theorem Change.arranged {root : Option String} {e e' : Engine α} (hchange : Change e e') (h : e.Arranged root) :
    e'.Arranged root := by
  have hgraph := hchange.graph
  cases hchange with
  | resize size =>
    refine ⟨?_, h.rests⟩
    change e.simulation.forces.retarget _ = _
    rw [h.forces, Arrangement.retarget_forces]
  | tick =>
    exact h.of_frame rfl rfl hgraph rfl (Simulation.tick_forces e.simulation e.model)
      fun _ => Simulation.tick_running e.simulation e.model
  | @grab _ _ held _ _ hbegin =>
    obtain ⟨_, hforces, hstatic⟩ := Held.begin_frame hbegin
    refine h.of_frame rfl rfl hgraph rfl hforces fun hrows hrunning => ?_
    change held.simulation.running = false
    rw [hstatic (by rw [hrows]; rfl)]
    exact hrunning
  | drag node screen =>
    have hsame : (e.dragTo node screen).simulation = e.simulation := (Held.moveTo_frame node _ e.held).2
    exact h.of_frame rfl rfl hgraph rfl (by rw [hsame]) fun _ hrunning => by rw [hsame]; exact hrunning
  | drop node =>
    obtain ⟨_, hforces, hrunning⟩ := Held.finish_frame node e.held
    exact h.of_frame rfl rfl hgraph rfl hforces fun _ => hrunning.trans
  | _ => exact h.of_frame rfl rfl rfl rfl rfl fun _ => id

/-! ## Runs -/

omit [Scalar α] in
theorem exists_latest_layout (ops : List (Operation α)) (h : ∃ op ∈ ops, op.laysOut = true) :
    ∃ before op later, ops = before ++ op :: later ∧ op.laysOut = true ∧ ∀ op' ∈ later, op'.laysOut = false := by
  induction ops with
  | nil => exact absurd h (by simp)
  | cons first rest ih =>
    by_cases hrest : ∃ op ∈ rest, op.laysOut = true
    · obtain ⟨before, op, later, rfl, hop, hlater⟩ := ih hrest
      exact ⟨first :: before, op, later, rfl, hop, hlater⟩
    · refine ⟨[], first, rest, rfl, ?_, ?_⟩
      · obtain ⟨op, hmem, hop⟩ := h
        rcases List.mem_cons.mp hmem with rfl | hmem
        · exact hop
        · exact absurd ⟨op, hmem, hop⟩ hrest
      · intro op hmem
        exact Bool.eq_false_iff.mpr fun hop => hrest ⟨op, hmem, hop⟩

/-- The forces of an engine are those of its mode, for the graph and the root of the latest layout of a run. -/
def FitsLatestLayout (settings : Settings α) (ops : List (Operation α)) (e : Engine α) : Prop :=
  ∃ before op later arranged replies,
    ops = before ++ op :: later ∧ op.laysOut = true ∧ (∀ op' ∈ later, op'.laysOut = false) ∧
    (ofSettings settings).run (before ++ [op]) = .ok (arranged, replies) ∧
    e.model.graph = arranged.model.graph ∧ e.ForcesFit arranged.root

/-- After every run with a layout in it, the forces are those of the current mode, made for the root of the latest
layout and centered on the viewport as it is now. -/
theorem run_forces_fit (settings : Settings Float32) (ops : List (Operation Float32))
    (hops : ∃ op ∈ ops, op.laysOut = true) :
    ∃ e replies, (ofSettings settings).run ops = .ok (e, replies) ∧ e.settings = settings.sanitized ∧
      e.FitsLatestLayout settings ops := by
  obtain ⟨before, op, later, rfl, hop, hlater⟩ := exists_latest_layout ops hops
  have hstart : (ofSettings settings).viewport.InOrder := ofSettings_inOrder (by decide) settings
  obtain ⟨e₁, replies₁, hrun₁, hmoves₁⟩ := run_moves before (ofSettings settings) hstart
  obtain ⟨e₂, reply₂, hstep₂, hmove₂, harranged⟩ := step_arranged e₁ op hop
  have hmoves₂ : Moves (ofSettings settings) e₂ := hmoves₁.tail hmove₂
  have horder₂ : e₂.viewport.InOrder := preserved_along (·.viewport.InOrder) Move.inOrder hmoves₂ hstart
  obtain ⟨e₃, replies₃, hrun₃, hchanges₃⟩ := run_changes later hlater e₂ horder₂
  have hop₂ : e₁.run [op] = .ok (e₂, [reply₂]) := run_cons_eq_ok.mpr ⟨e₂, reply₂, [], hstep₂, rfl, rfl⟩
  have hsettings₂ : e₂.settings = settings.sanitized :=
    preserved_along (·.settings = _) (fun hmove he => hmove.settings.trans he) hmoves₂ rfl
  refine ⟨e₃, _, run_append hrun₁ (run_cons_eq_ok.mpr ⟨e₂, reply₂, replies₃, hstep₂, hrun₃, rfl⟩), ?_, before, op,
    later, e₂, _, rfl, hop, hlater, run_append hrun₁ hop₂, ?_, ?_⟩
  · exact preserved_along (·.settings = _) (fun hchange he => (Move.change hchange).settings.trans he) hchanges₃
      hsettings₂
  · exact preserved_along (·.model.graph = _) (fun hchange he => hchange.graph.trans he) hchanges₃ rfl
  · exact (preserved_along (Arranged e₂.root) Change.arranged hchanges₃ harranged).forcesFit

/-- Rings around `b`, then another root and another size of the canvas. -/
def resizedRings : List (Operation Float32) :=
  [.load ⟨[.ofId "a", .ofId "b"], [⟨"a", "b"⟩]⟩, .setRoot (some "b"), .setLayout .radial, .setRoot none,
    .resize ⟨800.0, 600.0⟩]

theorem resizedRings_forces_fit :
    (∃ op ∈ resizedRings, op.laysOut = true) ∧
    ∃ e replies, (ofSettings .standard).run resizedRings = .ok (e, replies) ∧
      e.settings = Settings.standard.sanitized ∧ e.FitsLatestLayout .standard resizedRings := by
  have hlayout : ∃ op ∈ resizedRings, op.laysOut = true := ⟨.setLayout .radial, by simp [resizedRings], rfl⟩
  exact ⟨hlayout, run_forces_fit .standard resizedRings hlayout⟩

end Engine

end CallAtlas
