import CallAtlas.Proofs.Engine.Run
import CallAtlas.Proofs.Physics.Pins

/-! Drags, pins and the target temperature stay together along every run.

`Held.Coherent` is the invariant: the nodes in the hand are different nodes of the graph, they and no others are
pinned, they rest at their pins, and the simulation is kept warm exactly while something is held in a layout that it
moves. `Held.Free` is what loads and layouts start from: nothing held, nothing pinned, nothing warm. -/

namespace CallAtlas

set_option autoImplicit false

open Simulation

variable {α : Type}

namespace Drags

/-- The nodes in the hand. -/
def nodes (d : Drags α) : List Nat := d.active.map (·.node)

theorem isDragging_iff (d : Drags α) (i : Nat) : d.isDragging i = true ↔ i ∈ d.nodes := by
  simp [isDragging, nodes]

end Drags

namespace Held

variable [Scalar α]

/-- Drags, pins and the target temperature fit together. `simulated` tells whether the simulation moves the nodes. -/
structure Coherent (simulated : Bool) (h : Held α) : Prop where
  distinct : h.drags.nodes.Nodup
  inRange : ∀ i ∈ h.drags.nodes, i < h.model.size
  pinned : h.model.PinnedAt h.drags.nodes
  warm : h.drags.active ≠ [] → simulated = true → h.simulation.alphaTarget = Scalar.clamp 0.0 1.0 h.drags.alphaTarget
  cool : h.drags.active = [] ∨ simulated = false → h.simulation.alphaTarget = 0.0

/-- Nothing is held, nothing is pinned, and the simulation may cool down. -/
structure Free (h : Held α) : Prop where
  active : h.drags.active = []
  pinned : h.model.PinnedAt []
  cool : h.simulation.alphaTarget = 0.0

theorem Free.coherent {h : Held α} (hf : h.Free) (simulated : Bool) : h.Coherent simulated := by
  have hnodes : h.drags.nodes = [] := by rw [Drags.nodes, hf.active, List.map_nil]
  refine ⟨?_, ?_, ?_, fun hne => absurd hf.active hne, fun _ => hf.cool⟩
  · rw [hnodes]
    exact List.nodup_nil
  · rw [hnodes]
    exact fun i hi => absurd hi List.not_mem_nil
  · rw [hnodes]
    exact hf.pinned

/-! ## Taking a node -/

theorem begin_eq_some_iff (node : Nat) (pointer : Vec α) (simulated : Bool) (h h' : Held α) :
    h.begin node pointer simulated = some h' ↔
      node ∉ h.drags.nodes ∧ ∃ body, h.model.body? node = some body ∧
        h' = { drags := { h.drags with active := h.drags.active ++ [⟨node, body.pos - pointer⟩] }
               model := h.model.modifyBody node fun b => { b with pin := some b.pos, velocity := .zero }
               simulation := if simulated then Held.warm h.drags.alphaTarget h.simulation else h.simulation } := by
  unfold Held.begin
  by_cases hd : h.drags.isDragging node
  · rw [if_pos hd]
    simp [(h.drags.isDragging_iff node).mp hd]
  · rw [if_neg hd]
    have hnode : node ∉ h.drags.nodes := fun hmem => hd ((h.drags.isDragging_iff node).mpr hmem)
    cases hb : h.model.body? node with
    | none => simp
    | some body => simp [hnode, eq_comm]

theorem begin_nodes {node : Nat} {pointer : Vec α} {simulated : Bool} {h h' : Held α}
    (hbegin : h.begin node pointer simulated = some h') : h'.drags.nodes = h.drags.nodes ++ [node] := by
  obtain ⟨_, body, _, rfl⟩ := (begin_eq_some_iff node pointer simulated h h').mp hbegin
  exact List.map_append

theorem begin_coherent {node : Nat} {pointer : Vec α} {simulated : Bool} {h h' : Held α}
    (hbegin : h.begin node pointer simulated = some h') (hc : h.Coherent simulated) : h'.Coherent simulated := by
  have hnodes := begin_nodes hbegin
  obtain ⟨hnode, body, hbody, rfl⟩ := (begin_eq_some_iff node pointer simulated h h').mp hbegin
  refine ⟨?_, ?_, ?_, ?_, ?_⟩
  · rw [hnodes]
    exact hc.distinct.append (List.nodup_singleton node) (List.disjoint_singleton.mpr hnode)
  · intro i hi
    rw [hnodes, List.mem_append, List.mem_singleton] at hi
    rw [Model.size, Model.modifyBody_graph]
    rcases hi with hi | hi
    · exact hc.inRange i hi
    · exact (h.model.body?_isSome i).mp (by rw [hi, hbody]; rfl)
  · rw [hnodes]
    refine hc.pinned.modifyBody node _ (fun i hi => by simp [hi]) fun b _ => ⟨by simp, fun pin hpin => ?_⟩
    exact ⟨Option.some.inj hpin, rfl⟩
  · intro _ hsim
    dsimp only
    rw [if_pos hsim]
    rfl
  · rintro (hnil | hsim)
    · exact absurd hnil (by simp)
    · dsimp only
      rw [if_neg (by simp [hsim])]
      exact hc.cool (Or.inr hsim)

/-! ## Moving a node -/

theorem moveTo_coherent (node : Nat) (pointer : Vec α) {simulated : Bool} {h : Held α} (hc : h.Coherent simulated) :
    (h.moveTo node pointer).Coherent simulated := by
  unfold moveTo
  split
  · next drag hdrag =>
    have hnode : node ∈ h.drags.nodes :=
      List.mem_map.mpr ⟨drag, List.mem_of_find?_eq_some hdrag, by simpa using List.find?_some hdrag⟩
    refine ⟨hc.distinct, ?_, ?_, hc.warm, hc.cool⟩
    · rw [Model.size, Model.modifyBody_graph]
      exact hc.inRange
    · refine hc.pinned.modifyBody node _ (fun i _ => Iff.rfl) fun b hb => ⟨by simp [hnode], fun pin hpin => ?_⟩
      -- The node was pinned before, so it was at rest before.
      obtain ⟨old, hold⟩ := Option.isSome_iff_exists.mp ((hc.pinned node b hb).1.mpr hnode)
      exact ⟨Option.some.inj hpin, ((hc.pinned node b hb).2 old hold).2⟩
  · exact hc

/-! ## Letting nodes go -/

theorem release_pinnedAt {m : Model α} {node : Nat} {nodes nodes' : List Nat} (h : m.PinnedAt nodes)
    (hothers : ∀ i, i ≠ node → (i ∈ nodes' ↔ i ∈ nodes)) (hnode : node ∉ nodes') :
    (release node m).PinnedAt nodes' :=
  h.modifyBody node _ hothers fun _ _ => ⟨by simp [hnode], Body.resting_of_pin_eq_none rfl⟩

theorem finish_coherent (hzero : Scalar.clamp 0.0 1.0 (0.0 : α) = 0.0) (node : Nat) {simulated : Bool} {h : Held α}
    (hc : h.Coherent simulated) : (h.finish node).Coherent simulated := by
  unfold finish
  split
  · next hd =>
    have hnode : node ∈ h.drags.nodes := (h.drags.isDragging_iff node).mp hd
    have hactive : h.drags.active ≠ [] := fun hnil => by simp [Drags.nodes, hnil] at hnode
    have hleft : ∀ i, i ∈ (h.drags.active.filter (·.node ≠ node)).map (·.node) ↔ i ∈ h.drags.nodes ∧ i ≠ node := by
      intro i
      simp only [Drags.nodes, List.mem_map, List.mem_filter, decide_eq_true_eq]
      constructor
      · rintro ⟨drag, ⟨hmem, hne⟩, rfl⟩
        exact ⟨⟨drag, hmem, rfl⟩, hne⟩
      · rintro ⟨⟨drag, hmem, rfl⟩, hne⟩
        exact ⟨drag, ⟨hmem, hne⟩, rfl⟩
    refine ⟨?_, ?_, ?_, ?_, ?_⟩
    · exact hc.distinct.sublist (List.filter_sublist.map _)
    · intro i hi
      rw [Model.size, release, Model.modifyBody_graph]
      exact hc.inRange i ((hleft i).mp hi).1
    · have hgone : node ∉ (h.drags.active.filter (·.node ≠ node)).map (·.node) :=
        fun hmem => ((hleft node).mp hmem).2 rfl
      exact release_pinnedAt hc.pinned (fun i hi => (hleft i).trans (and_iff_left hi)) hgone
    · intro hne hsim
      dsimp only at hne ⊢
      rw [if_neg (by simpa using hne)]
      exact hc.warm hactive hsim
    · intro hcool
      dsimp only at hcool ⊢
      split
      · exact hzero
      · next hne =>
        rcases hcool with hnil | hsim
        · exact absurd (by rw [hnil]; rfl) hne
        · exact hc.cool (Or.inr hsim)
  · exact hc

theorem foldl_release_pinnedAt (active : List (Drag α)) (m : Model α) (hnodup : (active.map (·.node)).Nodup)
    (h : m.PinnedAt (active.map (·.node))) : (active.foldl (fun m drag => release drag.node m) m).PinnedAt [] := by
  induction active generalizing m with
  | nil => exact h
  | cons drag rest ih =>
    rw [List.map_cons, List.nodup_cons] at hnodup
    rw [List.foldl_cons]
    exact ih _ hnodup.2 (release_pinnedAt h (fun i hi => by simp [hi]) hnodup.1)

theorem cancelAll_free (hzero : Scalar.clamp 0.0 1.0 (0.0 : α) = 0.0) {simulated : Bool} {h : Held α}
    (hc : h.Coherent simulated) : h.cancelAll.Free :=
  ⟨rfl, foldl_release_pinnedAt h.drags.active h.model hc.distinct hc.pinned, hzero⟩

end Held

/-! ## Layouts -/

section Layouts

variable [Scalar α]

theorem Model.pinnedAt_nil_iff (m : Model α) : m.PinnedAt [] ↔ ∀ i b, m.body? i = some b → b.pin = none := by
  constructor
  · intro h i b hb
    have := (h i b hb).1
    simpa using this
  · intro h i b hb
    exact ⟨by simp [h i b hb], Body.resting_of_pin_eq_none (h i b hb)⟩

theorem Model.scatter_pinnedAt (center : Vec α) (m : Model α) : (m.scatter center).PinnedAt [] := by
  rw [pinnedAt_nil_iff]
  intro i b hb
  obtain ⟨h, rfl⟩ := (body?_eq_some_iff _ i b).mp hb
  exact congrArg Body.pin (Vector.get_ofFn _ _)

theorem Model.PinnedAt.of_same_pins {m m' : Model α} (h : m.PinnedAt [])
    (hpins : ∀ i, (m'.body? i).map (·.pin) = (m.body? i).map (·.pin)) : m'.PinnedAt [] := by
  rw [pinnedAt_nil_iff] at h ⊢
  intro i b hb
  have hpin := hpins i
  rw [hb] at hpin
  obtain ⟨old, hold, (hsame : old.pin = b.pin)⟩ := Option.map_eq_some_iff.mp hpin.symm
  rw [← hsame]
  exact h i old hold

theorem Arrangement.stopped_pin (m : Model α) (i : Nat) :
    ((stopped m).body? i).map (·.pin) = (m.body? i).map (·.pin) := by
  rw [stopped, Model.body?_mapBodies, Option.map_map]
  rfl

theorem Arrangement.inRows_pin (layout : LayoutSettings α) (center : Vec α) (m : Model α) (i : Nat) :
    ((inRows layout center m).body? i).map (·.pin) = (m.body? i).map (·.pin) := by
  rw [Model.map_pin_body?, Model.map_pin_body?]
  refine congrArg (fun held : Vector (Option (Vec α)) m.graph.size => held[i]?) (pins_eq_of_get fun k => ?_)
  exact (congrArg Body.pin (Vector.get_ofFn _ k)).trans rfl

end Layouts

namespace Engine

variable [Scalar α]

theorem arrange_free (mode : LayoutMode) {e : Engine α} (h : e.held.Free) : (e.arrange mode).held.Free := by
  have hstopped : (Arrangement.stopped e.model).PinnedAt [] := h.pinned.of_same_pins (Arrangement.stopped_pin e.model)
  refine ⟨h.active, ?_, ?_⟩
  · change (Arrangement.apply mode _ _ _ e.model e.simulation).1.PinnedAt []
    unfold Arrangement.apply
    dsimp only
    split
    · exact hstopped
    · exact hstopped.of_same_pins (Arrangement.inRows_pin _ _ _)
  · change (Arrangement.apply mode _ _ _ e.model e.simulation).2.alphaTarget = 0.0
    unfold Arrangement.apply
    dsimp only
    split <;> exact h.cool

/-- The drags of an engine fit its model, its simulation and its layout. -/
def Coherent (e : Engine α) : Prop := e.held.Coherent e.mode.isSimulated

theorem ofSettings_coherent (settings : Settings α) : (ofSettings settings).Coherent := by
  apply Held.Free.coherent
  refine ⟨rfl, fun i b hb => ?_, rfl⟩
  obtain ⟨h, _⟩ := (Model.body?_eq_some_iff _ i b).mp hb
  exact absurd h (Nat.not_lt_zero i)

theorem load_coherent (graph : GraphSpec) (e : Engine α) : (e.load graph).Coherent := by
  apply Held.Free.coherent
  apply arrange_free
  exact ⟨rfl, Model.scatter_pinnedAt _ _, rfl⟩

theorem setLayout_coherent (hzero : Scalar.clamp 0.0 1.0 (0.0 : α) = 0.0) (mode : LayoutMode) {e : Engine α}
    (h : e.Coherent) : (e.setLayout mode).Coherent := by
  apply Held.Free.coherent
  apply arrange_free
  exact Held.cancelAll_free hzero h

theorem tick_coherent {e : Engine α} (h : e.Coherent) : e.tick.Coherent := by
  have hgraph : (e.simulation.tick e.model).2.graph = e.model.graph := tick_graph e.simulation e.model
  have htarget : (e.simulation.tick e.model).1.alphaTarget = e.simulation.alphaTarget :=
    tick_alphaTarget e.simulation e.model
  refine ⟨h.distinct, ?_, tick_pinnedAt e.simulation e.model _ h.pinned, ?_, ?_⟩
  · intro i hi
    change i < (e.simulation.tick e.model).2.graph.size
    rw [hgraph]
    exact h.inRange i hi
  · exact fun hne hsim => htarget.trans (h.warm hne hsim)
  · exact fun hcool => htarget.trans (h.cool hcool)

/-! ## The node under the pointer -/

theorem beginDrag_of_free {screen : Vec α} {node : Nat} {e : Engine α} (hnode : e.nodeAt screen = some node)
    (hfree : node ∉ e.drags.nodes) :
    ∃ held, e.beginDrag screen = (e.withHeld held, some node) ∧ held.drags.nodes = e.drags.nodes ++ [node] := by
  obtain ⟨i, _, rfl⟩ := Option.map_eq_some_iff.mp hnode
  obtain ⟨body, hbody⟩ := Option.isSome_iff_exists.mp ((e.model.body?_isSome i).mpr i.isLt)
  obtain ⟨held, hbegin⟩ : ∃ held, e.held.begin i (e.transform.invert screen) e.mode.isSimulated = some held :=
    ⟨_, (Held.begin_eq_some_iff _ _ _ _ _).mpr ⟨hfree, body, hbody, rfl⟩⟩
  refine ⟨held, ?_, Held.begin_nodes hbegin⟩
  rw [beginDrag, hnode]
  simp only [hbegin]

theorem beginDrag_of_not_free {screen : Vec α} {e : Engine α}
    (h : ∀ node, e.nodeAt screen = some node → node ∈ e.drags.nodes) : e.beginDrag screen = (e, none) := by
  unfold beginDrag
  split
  · next node hnode =>
    split
    · next held hbegin =>
      exact absurd (h node hnode) ((Held.begin_eq_some_iff _ _ _ _ _).mp hbegin).1
    · rfl
  · rfl

/-! ## Moves -/

/-- Every move keeps drags, pins and the target temperature together. -/
theorem Move.coherent (hzero : Scalar.clamp 0.0 1.0 (0.0 : α) = 0.0) {e e' : Engine α} (hmove : Move e e')
    (h : e.Coherent) : e'.Coherent := by
  cases hmove with
  | load graph => exact load_coherent graph e
  | setLayout mode => exact setLayout_coherent hzero mode h
  | change hchange =>
    cases hchange with
    | tick => exact tick_coherent h
    | resize size => exact ⟨h.distinct, h.inRange, h.pinned, h.warm, h.cool⟩
    | grab _ hbegin => exact Held.begin_coherent hbegin h
    | drag node screen => exact Held.moveTo_coherent node _ h
    | drop node => exact Held.finish_coherent hzero node h
    | _ => exact h

theorem Move.drags_alphaTarget {e e' : Engine α} (hmove : Move e e') : e'.drags.alphaTarget = e.drags.alphaTarget := by
  cases hmove with
  | load graph => rfl
  | setLayout mode => rfl
  | change hchange =>
    cases hchange with
    | grab _ hbegin =>
      obtain ⟨_, _, _, rfl⟩ := (Held.begin_eq_some_iff _ _ _ _ _).mp hbegin
      rfl
    | drag node screen =>
      change (e.held.moveTo node _).drags.alphaTarget = _
      unfold Held.moveTo
      split <;> rfl
    | drop node =>
      change (e.held.finish node).drags.alphaTarget = _
      unfold Held.finish
      split <;> rfl
    | _ => rfl

/-- Along every run the nodes in the hand are different nodes of the graph, exactly they are pinned, they rest at
their pins, and the target temperature is that of dragging while there are any and the layout is a simulated one. -/
theorem run_drags_coherent (settings : Settings Float32) (ops : List (Operation Float32)) :
    ∃ e replies, (ofSettings settings).run ops = .ok (e, replies) ∧
      (e.drags.active.map (·.node)).Nodup ∧
      (∀ d ∈ e.drags.active, d.node < e.model.size) ∧
      (∀ i b, e.model.body? i = some b → (b.pin.isSome ↔ ∃ d ∈ e.drags.active, d.node = i)) ∧
      (∀ d ∈ e.drags.active, ∃ b, e.model.body? d.node = some b ∧ b.pin = some b.pos ∧ b.velocity = .zero) ∧
      (e.drags.active ≠ [] ∧ (e.mode = .force ∨ e.mode = .radial) →
        e.simulation.alphaTarget = Scalar.clamp 0.0 1.0 settings.simulation.dragAlphaTarget) ∧
      (¬ (e.drags.active ≠ [] ∧ (e.mode = .force ∨ e.mode = .radial)) → e.simulation.alphaTarget = 0.0) := by
  obtain ⟨e, replies, hrun, hmoves⟩ := run_moves ops (ofSettings settings) (ofSettings_inOrder (by decide) settings)
  have hc : e.Coherent :=
    preserved_along Coherent (Move.coherent clamp_unit_zero) hmoves (ofSettings_coherent settings)
  have htarget : e.drags.alphaTarget = Scalar.clamp 0.0 1.0 settings.simulation.dragAlphaTarget :=
    preserved_along (·.drags.alphaTarget = _) (fun hmove he => hmove.drags_alphaTarget.trans he) hmoves rfl
  have hsim : e.mode.isSimulated = true ↔ e.mode = .force ∨ e.mode = .radial := by
    cases e.mode <;> simp [LayoutMode.isSimulated]
  refine ⟨e, replies, hrun, hc.distinct, ?_, ?_, ?_, ?_, ?_⟩
  · exact fun d hd => hc.inRange d.node (List.mem_map_of_mem hd)
  · exact fun i b hb => (hc.pinned i b hb).1.trans List.mem_map
  · intro d hd
    have hnode : d.node ∈ e.drags.nodes := List.mem_map_of_mem hd
    obtain ⟨b, hb⟩ := Option.isSome_iff_exists.mp ((e.model.body?_isSome d.node).mpr (hc.inRange d.node hnode))
    obtain ⟨hpinned, hresting⟩ := hc.pinned d.node b hb
    obtain ⟨pin, hpin⟩ := Option.isSome_iff_exists.mp (hpinned.mpr hnode)
    obtain ⟨hpos, hvelocity⟩ := hresting pin hpin
    exact ⟨b, hb, by rw [hpin, hpos], hvelocity⟩
  · rintro ⟨hactive, hmode⟩
    calc e.simulation.alphaTarget = Scalar.clamp 0.0 1.0 e.drags.alphaTarget := hc.warm hactive (hsim.mpr hmode)
      _ = Scalar.clamp 0.0 1.0 (Scalar.clamp 0.0 1.0 settings.simulation.dragAlphaTarget) := by rw [htarget]
      _ = Scalar.clamp 0.0 1.0 settings.simulation.dragAlphaTarget := clamp_unit_clamp _
  · intro hnot
    apply hc.cool
    by_cases hactive : e.drags.active = []
    · exact Or.inl hactive
    · exact Or.inr (Bool.eq_false_iff.mpr fun h => hnot ⟨hactive, hsim.mp h⟩)

example :
    ((ofSettings (.standard : Settings Float32)).run
        [.load ⟨[.ofId "a"], []⟩, .beginDrag ⟨480.0, 320.0⟩, .advance 0.02]).toOption.map
      (fun result => (result.1.drags.active.map (·.node), result.1.simulation.alphaTarget == 0.3)) =
      some ([0], true) := by
  decide +kernel

end Engine

end CallAtlas
