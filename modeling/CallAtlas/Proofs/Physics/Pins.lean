import CallAtlas.Physics.Simulation
import Mathlib

/-! What the simulation does to pins: no force changes where a node is held, and a tick leaves a held node at rest
where it is held, wherever the forces have moved it meanwhile. -/

namespace CallAtlas

set_option autoImplicit false

variable {α : Type}

/-! ## Bodies by number -/

/-- Where the nodes are held. -/
def pins {n : Nat} (bodies : Vector (Body α) n) : Vector (Option (Vec α)) n := bodies.map (·.pin)

namespace Model

theorem body?_eq_some_iff (m : Model α) (i : Nat) (b : Body α) :
    m.body? i = some b ↔ ∃ h : i < m.graph.size, m.bodies.get ⟨i, h⟩ = b := by
  rw [body?, Vector.getElem?_eq_some_iff]
  rfl

theorem body?_isSome (m : Model α) (i : Nat) : (m.body? i).isSome ↔ i < m.size := by
  simp [body?, size]

theorem body?_mapBodies (f : Body α → Body α) (m : Model α) (i : Nat) :
    (m.mapBodies f).body? i = (m.body? i).map f :=
  Vector.getElem?_map

theorem map_pin_body? (m : Model α) (i : Nat) : (m.body? i).map (·.pin) = (pins m.bodies)[i]? :=
  Vector.getElem?_map.symm

@[simp] theorem modifyBody_graph (i : Nat) (f : Body α → Body α) (m : Model α) :
    (m.modifyBody i f).graph = m.graph := by
  unfold modifyBody
  split <;> rfl

theorem body?_modifyBody_self (i : Nat) (f : Body α → Body α) (m : Model α) :
    (m.modifyBody i f).body? i = (m.body? i).map f := by
  unfold modifyBody
  split
  · next h =>
    have hbody : m.body? i = some (m.bodies.get ⟨i, h⟩) := (m.body?_eq_some_iff i _).mpr ⟨h, rfl⟩
    rw [hbody]
    exact Vector.getElem?_set_self h
  · next h => simp [body?, h]

theorem body?_modifyBody_ne (i j : Nat) (f : Body α → Body α) (m : Model α) (h : i ≠ j) :
    (m.modifyBody i f).body? j = m.body? j := by
  unfold modifyBody
  split
  · next hi => exact Vector.getElem?_set_ne hi h
  · rfl

end Model

/-! ## Forces -/

theorem pins_eq_of_get {n : Nat} {bodies bodies' : Vector (Body α) n}
    (h : ∀ i, (bodies'.get i).pin = (bodies.get i).pin) : pins bodies' = pins bodies := by
  apply Vector.ext
  intro i hi
  rw [pins, pins, Vector.getElem_map, Vector.getElem_map]
  exact h ⟨i, hi⟩

theorem pins_set_velocity {n : Nat} (bodies : Vector (Body α) n) (i : Fin n) (velocity : Vec α) :
    pins (bodies.set i { bodies.get i with velocity := velocity } i.isLt) = pins bodies := by
  apply pins_eq_of_get
  intro j
  by_cases hij : i = j
  · rw [← hij, Vector.get_eq_getElem, Vector.getElem_set_self]
  · rw [Vector.get_eq_getElem, Vector.getElem_set_ne _ _ (Fin.val_ne_of_ne hij), Vector.get_eq_getElem]

variable [Scalar α] {n : Nat}

theorem LinkForce.applyTo_pins (force : LinkForce α) (alpha : α) (degrees : Vector Nat n)
    (bodies : Vector (Body α) n) (link : Link n) : pins (force.applyTo alpha degrees bodies link) = pins bodies := by
  unfold applyTo
  split
  · rfl
  · exact (pins_set_velocity _ _ _).trans (pins_set_velocity _ _ _)

theorem LinkForce.apply_pins (force : LinkForce α) (alpha : α) (graph : CallGraph)
    (bodies : Vector (Body α) graph.size) : pins (force.apply alpha graph bodies) = pins bodies := by
  unfold apply
  induction graph.links generalizing bodies with
  | nil => rfl
  | cons link rest ih => rw [List.foldl_cons, ih, applyTo_pins]

theorem ChargeForce.apply_pins (force : ChargeForce α) (alpha : α) (bodies : Vector (Body α) n) :
    pins (force.apply alpha bodies) = pins bodies := by
  unfold apply
  dsimp only
  split
  · apply pins_eq_of_get
    intro i
    rw [Vector.get_ofFn]
  · rfl

theorem CollisionForce.round?_pins (force : CollisionForce α) (bodies pushed : Vector (Body α) n)
    (h : force.round? bodies = some pushed) : pins pushed = pins bodies := by
  obtain ⟨tree, _, rfl⟩ := Option.map_eq_some_iff.mp h
  apply pins_eq_of_get
  intro i
  rw [Vector.get_ofFn]

theorem CollisionForce.rounds_pins (force : CollisionForce α) (k : Nat) (bodies : Vector (Body α) n) :
    pins (force.rounds k bodies) = pins bodies := by
  induction k generalizing bodies with
  | zero => rfl
  | succ k ih =>
    rw [rounds]
    split
    · next pushed h => rw [ih, force.round?_pins bodies pushed h]
    · rfl

theorem CollisionForce.apply_pins (force : CollisionForce α) (bodies : Vector (Body α) n) :
    pins (force.apply bodies) = pins bodies := by
  unfold apply
  split
  · exact force.rounds_pins _ bodies
  · rfl

theorem RadialForce.apply_pins (force : RadialForce α) (alpha : α) (bodies : Vector (Body α) n) :
    pins (force.apply alpha bodies) = pins bodies := by
  apply pins_eq_of_get
  intro i
  rw [apply, Vector.get_ofFn]
  split <;> rfl

theorem CenterForce.apply_pins (force : CenterForce α) (bodies : Vector (Body α) n) :
    pins (force.apply bodies) = pins bodies := by
  apply pins_eq_of_get
  intro i
  rw [apply, Vector.get_map]

omit [Scalar α] in
/-- A force that may be missing keeps the pins if it does so where it is there. -/
theorem pins_getD_map {φ : Type} (force : Option φ) (f : φ → Vector (Body α) n) (bodies : Vector (Body α) n)
    (h : ∀ x, pins (f x) = pins bodies) : pins ((force.map f).getD bodies) = pins bodies := by
  cases force with
  | none => rfl
  | some x => exact h x

@[simp] theorem ForceSet.apply_graph (forces : ForceSet α) (alpha : α) (m : Model α) :
    (forces.apply alpha m).graph = m.graph := by
  unfold apply
  split <;> rfl

theorem ForceSet.apply_pin (forces : ForceSet α) (alpha : α) (m : Model α) (i : Nat) :
    ((forces.apply alpha m).body? i).map (·.pin) = (m.body? i).map (·.pin) := by
  unfold apply
  split
  · rfl
  · rw [Model.map_pin_body?, Model.map_pin_body?]
    refine congrArg (fun held : Vector (Option (Vec α)) m.graph.size => held[i]?) (?_ : pins _ = pins m.bodies)
    refine (pins_getD_map forces.center _ _ fun f => f.apply_pins _).trans ?_
    refine (pins_getD_map forces.radial _ _ fun f => f.apply_pins alpha _).trans ?_
    refine (pins_getD_map forces.collision _ _ fun f => f.apply_pins _).trans ?_
    refine (pins_getD_map forces.charge _ _ fun f => f.apply_pins alpha _).trans ?_
    exact pins_getD_map forces.link _ _ fun f => f.apply_pins alpha m.graph _

/-! ## Pinned nodes -/

/-- A body that is held nowhere, or is at rest where it is held. -/
def Body.Resting (b : Body α) : Prop := ∀ pin, b.pin = some pin → b.pos = pin ∧ b.velocity = .zero

/-- Exactly the given nodes are pinned, and they rest at their pins. -/
def Model.PinnedAt (m : Model α) (nodes : List Nat) : Prop :=
  ∀ i b, m.body? i = some b → (b.pin.isSome ↔ i ∈ nodes) ∧ b.Resting

theorem Body.resting_of_pin_eq_none {b : Body α} (h : b.pin = none) : b.Resting := by
  intro pin hpin
  rw [h] at hpin
  cases hpin

/-- Changing the body of one node changes at most whether this node is pinned. -/
theorem Model.PinnedAt.modifyBody {m : Model α} {nodes nodes' : List Nat} (h : m.PinnedAt nodes) (node : Nat)
    (f : Body α → Body α) (hothers : ∀ i, i ≠ node → (i ∈ nodes' ↔ i ∈ nodes))
    (hnode : ∀ b, m.body? node = some b → ((f b).pin.isSome ↔ node ∈ nodes') ∧ (f b).Resting) :
    (m.modifyBody node f).PinnedAt nodes' := by
  intro i b hb
  by_cases hi : node = i
  · subst hi
    rw [body?_modifyBody_self] at hb
    obtain ⟨old, hold, rfl⟩ := Option.map_eq_some_iff.mp hb
    exact hnode old hold
  · rw [body?_modifyBody_ne node i f m hi] at hb
    rw [hothers i (Ne.symm hi)]
    exact h i b hb

/-! ## Ticks -/

namespace Simulation

theorem integrate_pin (s : Simulation α) (b : Body α) : (s.integrate b).pin = b.pin := by
  unfold integrate
  split <;> rfl

theorem integrate_resting (s : Simulation α) (b : Body α) : (s.integrate b).Resting := by
  intro pin hpin
  rw [integrate_pin] at hpin
  unfold integrate
  rw [hpin]
  exact ⟨rfl, rfl⟩

@[simp] theorem tick_graph (s : Simulation α) (m : Model α) : (s.tick m).2.graph = m.graph := by
  unfold tick
  split
  · exact ForceSet.apply_graph _ _ m
  · rfl

@[simp] theorem tick_alphaTarget (s : Simulation α) (m : Model α) : (s.tick m).1.alphaTarget = s.alphaTarget := by
  unfold tick
  split <;> rfl

@[simp] theorem tick_forces (s : Simulation α) (m : Model α) : (s.tick m).1.forces = s.forces := by
  unfold tick
  split <;> rfl

theorem tick_of_rests {s : Simulation α} (hrests : s.running = false) (m : Model α) : s.tick m = (s, m) :=
  if_neg (by simp [hrests])

theorem tick_running (s : Simulation α) (m : Model α) (h : s.running = false) : (s.tick m).1.running = false := by
  rw [tick_of_rests h]
  exact h

/-- A tick keeps what is pinned, and brings it back to rest at its pin. -/
theorem tick_pinnedAt (s : Simulation α) (m : Model α) (nodes : List Nat) (h : m.PinnedAt nodes) :
    (s.tick m).2.PinnedAt nodes := by
  unfold tick
  split
  · intro i b hb
    rw [Model.body?_mapBodies] at hb
    obtain ⟨pushed, hpushed, rfl⟩ := Option.map_eq_some_iff.mp hb
    have hpin := ForceSet.apply_pin s.forces (s.alpha + (s.alphaTarget - s.alpha) * s.alphaDecay) m i
    rw [hpushed] at hpin
    obtain ⟨old, hold, (hsame : old.pin = pushed.pin)⟩ := Option.map_eq_some_iff.mp hpin.symm
    refine ⟨?_, integrate_resting _ pushed⟩
    rw [integrate_pin, ← hsame]
    exact (h i old hold).1
  · exact h

end Simulation

end CallAtlas
