import CallAtlas.Proofs.Engine.Look

/-! In rows nothing moves but what a hand moves.

From a layout in rows on the simulation rests (`RestsInRows`), so that an operation can do no more than take, move and
drop nodes (`RestingStep`). What that makes of a node is read off the operations so far: it is in the hand if it was
taken and not dropped since (`HeldSince`), and it lies where it was put last (`PutLast`), or else in its row. -/

namespace CallAtlas

set_option autoImplicit false

variable {α : Type}

/-- Operations that lay a graph out in rows, when the present mode is the given one. -/
def Operation.entersRows (mode : LayoutMode) : Operation α → Bool
  | .setLayout .hierarchical => true
  | .load _ => decide (mode = .hierarchical)
  | _ => false

/-- What time answers while nothing moves. -/
def Operation.RestingReply : Operation α → Reply α → Prop
  | .advance _, reply => reply = .flag false
  | .settle _, reply => reply = .count 0
  | _, _ => True

theorem Model.forall_body?_modifyBody {m : Model α} {P : ℕ → Body α → Prop} {node : ℕ} {f : Body α → Body α}
    (h : ∀ i b, i ≠ node → m.body? i = some b → P i b) (hnode : ∀ b, m.body? node = some b → P node (f b)) (i : ℕ)
    (b : Body α) (hb : (m.modifyBody node f).body? i = some b) : P i b := by
  by_cases hi : i = node
  · subst hi
    rw [body?_modifyBody_self] at hb
    obtain ⟨old, hold, rfl⟩ := Option.map_eq_some_iff.mp hb
    exact hnode old hold
  · rw [body?_modifyBody_ne node i f m (Ne.symm hi)] at hb
    exact h i b hi hb

variable [Scalar α]

/-! ## Nodes in the hand -/

namespace Held

theorem moveTo_of_mem {h : Held α} (hdistinct : h.drags.nodes.Nodup) {i : ℕ} {offset : Vec α}
    (hmem : ⟨i, offset⟩ ∈ h.drags.active) (pointer : Vec α) :
    h.moveTo i pointer = { h with
      model := h.model.modifyBody i fun b => { b with pin := some (pointer + offset), pos := pointer + offset } } := by
  have hsome : (h.drags.active.find? (·.node = i)).isSome := by
    rw [List.find?_isSome]
    exact ⟨⟨i, offset⟩, hmem, by simp⟩
  obtain ⟨drag, hdrag⟩ := Option.isSome_iff_exists.mp hsome
  have hnode : drag.node = i := by simpa using List.find?_some hdrag
  have hsame : drag = ⟨i, offset⟩ :=
    List.inj_on_of_nodup_map hdistinct (List.mem_of_find?_eq_some hdrag) hmem hnode
  rw [moveTo, hdrag, hsame]

theorem moveTo_of_not_mem {h : Held α} {i : ℕ} (hnot : ∀ offset, ⟨i, offset⟩ ∉ h.drags.active) (pointer : Vec α) :
    h.moveTo i pointer = h := by
  have hnone : h.drags.active.find? (·.node = i) = none := by
    rw [List.find?_eq_none]
    rintro ⟨node, offset⟩ hmem hnode
    have hi : node = i := by simpa using hnode
    exact hnot offset (hi ▸ hmem)
  rw [moveTo, hnone]

theorem moveTo_drags (i : ℕ) (pointer : Vec α) (h : Held α) : (h.moveTo i pointer).drags = h.drags := by
  unfold moveTo
  split <;> rfl

theorem mem_finish_active (node : ℕ) (h : Held α) (drag : Drag α) :
    drag ∈ (h.finish node).drags.active ↔ drag ∈ h.drags.active ∧ drag.node ≠ node := by
  unfold finish
  split
  · simp
  · next hidle =>
    rw [Drags.isDragging_iff] at hidle
    refine ⟨fun hmem => ⟨hmem, fun hnode => hidle ?_⟩, And.left⟩
    exact hnode ▸ List.mem_map_of_mem hmem

end Held

namespace Engine

/-! ## Resting in rows -/

/-- Laid out in rows, with the simulation at rest. -/
structure RestsInRows (e : Engine α) : Prop where
  inOrder : e.viewport.InOrder
  mode : e.mode = .hierarchical
  arranged : ∃ root, e.Arranged root
  coherent : e.Coherent

theorem RestsInRows.rests {e : Engine α} (h : e.RestsInRows) : e.simulation.running = false := by
  obtain ⟨root, harranged⟩ := h.arranged
  exact harranged.rests h.mode

theorem Change.mode {e e' : Engine α} (hchange : Change e e') : e'.mode = e.mode := by
  cases hchange <;> rfl

theorem Change.restsInRows (hzero : Scalar.clamp 0.0 1.0 (0.0 : α) = 0.0) {e e' : Engine α} (hchange : Change e e')
    (h : e.RestsInRows) : e'.RestsInRows := by
  obtain ⟨root, harranged⟩ := h.arranged
  exact ⟨(Move.change hchange).inOrder h.inOrder, hchange.mode.trans h.mode, ⟨root, hchange.arranged harranged⟩,
    (Move.change hchange).coherent hzero h.coherent⟩

theorem tick_of_rests {e : Engine α} (hrests : e.simulation.running = false) : e.tick = e := by
  rw [tick, Simulation.tick_of_rests hrests]

theorem advance_of_rests {e : Engine α} (hrests : e.simulation.running = false) (seconds : α) :
    e.advance seconds = ({ e with elapsed := 0.0 }, false) := if_pos (by simp [hrests])

theorem settle_of_rests {e : Engine α} (hrests : e.simulation.running = false) (limit : ℕ) :
    e.settle limit = (e, 0) := by
  cases limit with
  | zero => rfl
  | succ limit => rw [settle, settleFrom, tick_of_rests hrests, if_neg (by simp [hrests])]

theorem restingReply_of_step {e e' : Engine α} (hrests : e.simulation.running = false) {op : Operation α}
    {reply : Reply α} (hstep : e.step op = .ok (e', reply)) : op.RestingReply reply := by
  cases op with
  | advance seconds =>
    rw [step, advance_of_rests hrests] at hstep
    cases hstep
    rfl
  | settle limit =>
    rw [step, settle_of_rests hrests] at hstep
    cases hstep
    rfl
  | _ => trivial

/-- What an operation can do in rows: take a node, move one, drop one, or leave nodes and drags alone. -/
inductive RestingStep (e : Engine α) : Operation α → Engine α → Prop
  | grab {screen : Vec α} {i : ℕ} {b : Body α} {held : Held α} (hgrabbed : (e.beginDrag screen).2 = some i)
      (hbody : e.model.body? i = some b)
      (hactive : held.drags.active = e.drags.active ++ [⟨i, b.pos - e.transform.invert screen⟩])
      (hmodel : held.model = e.model.modifyBody i fun b => { b with pin := some b.pos, velocity := .zero }) :
    RestingStep e (.beginDrag screen) (e.withHeld held)
  | put (i : ℕ) (screen : Vec α) : RestingStep e (.dragTo i screen) (e.dragTo i screen)
  | drop (i : ℕ) : RestingStep e (.endDrag i) (e.endDrag i)
  | other {op : Operation α} {e' : Engine α}
      (hop : op.drags = false ∨ ∃ screen, op = .beginDrag screen ∧ (e.beginDrag screen).2 = none)
      (hmodel : e'.model = e.model) (hdrags : e'.drags = e.drags) :
    RestingStep e op e'

theorem beginDrag_restingStep (screen : Vec α) (e : Engine α) :
    RestingStep e (.beginDrag screen) (e.beginDrag screen).1 := by
  cases hnode : e.nodeAt screen with
  | none =>
    have hmissed : e.beginDrag screen = (e, none) := by rw [beginDrag, hnode]
    rw [hmissed]
    exact .other (.inr ⟨screen, rfl, by rw [hmissed]⟩) rfl rfl
  | some i =>
    cases hbegin : e.held.begin i (e.transform.invert screen) e.mode.isSimulated with
    | none =>
      have hmissed : e.beginDrag screen = (e, none) := by simp only [beginDrag, hnode, hbegin]
      rw [hmissed]
      exact .other (.inr ⟨screen, rfl, by rw [hmissed]⟩) rfl rfl
    | some held =>
      have htaken : e.beginDrag screen = (e.withHeld held, some i) := by simp only [beginDrag, hnode, hbegin]
      obtain ⟨_, b, hbody, rfl⟩ := (Held.begin_eq_some_iff _ _ _ _ _).mp hbegin
      rw [htaken]
      exact .grab (by rw [htaken]) hbody rfl rfl

theorem restingStep_of_step {e e' : Engine α} (he : e.RestsInRows) {op : Operation α} {reply : Reply α}
    (hlays : op.laysOut = false) (hstep : e.step op = .ok (e', reply)) : RestingStep e op e' := by
  by_cases hlooks : op.looks = true
  · obtain ⟨l, reply', hl, _⟩ := e.step_of_looks he.inOrder op hlooks
    rw [hstep] at hl
    cases hl
    exact .other (.inl (op.drags_of_looks hlooks)) rfl rfl
  · cases op with
    | setRoot root => cases hstep; exact .other (.inl rfl) rfl rfl
    | resize size =>
      cases hstep
      refine .other (.inl rfl) ?_ ?_ <;> unfold resize <;> split <;> rfl
    | advance seconds =>
      rw [step, advance_of_rests he.rests] at hstep
      cases hstep
      exact .other (.inl rfl) rfl rfl
    | settle limit =>
      rw [step, settle_of_rests he.rests] at hstep
      cases hstep
      exact .other (.inl rfl) rfl rfl
    | beginDrag screen => cases hstep; exact beginDrag_restingStep screen e
    | dragTo node screen => cases hstep; exact .put node screen
    | endDrag node => cases hstep; exact .drop node
    | load graph => exact absurd hlays (by simp [Operation.laysOut])
    | setLayout mode => exact absurd hlays (by simp [Operation.laysOut])
    | _ => exact absurd rfl hlooks

/-! ## What the operations so far make of a node -/

/-- An operation takes a node in the hand; `offset` is the place of the node relative to the pointer. -/
def Grabs (i : ℕ) (offset : Vec α) (e : Engine α) (op : Operation α) : Prop :=
  ∃ screen b, op = .beginDrag screen ∧ (e.beginDrag screen).2 = some i ∧ e.model.body? i = some b ∧
    offset = b.pos - e.transform.invert screen

/-- In a run from `start` a node was taken in the hand, and it was not dropped since. -/
def HeldSince (start : Engine α) (i : ℕ) (offset : Vec α) (ops : List (Operation α)) : Prop :=
  Since (start.Meets fun _ e op => Grabs i offset e op) (fun _ op => op = .endDrag i) ops

/-- An operation moves a node that is in the hand: to the pointer, at the offset with which it was taken. -/
def Puts (start : Engine α) (i : ℕ) (place : Vec α) (past : List (Operation α)) (e : Engine α)
    (op : Operation α) : Prop :=
  ∃ screen offset, op = .dragTo i screen ∧ start.HeldSince i offset past ∧ place = e.transform.invert screen + offset

/-- In a run from `start` a node was put to a place, and nowhere else since. -/
def PutLast (start : Engine α) (i : ℕ) (place : Vec α) (ops : List (Operation α)) : Prop :=
  Since (start.Meets (start.Puts i place)) (start.Meets fun past e op => ∃ place', start.Puts i place' past e op) ops

/-- The places in rows of all nodes, for the root and the canvas as they are. -/
def rowPlaces (e : Engine α) : Vector (Vec α) e.model.graph.size :=
  e.model.graph.treePositions (e.model.graph.resolveRoot e.root) e.viewport.center e.settings.layout.treeBreadthSpacing
    e.settings.layout.treeLevelSpacing

/-- A node lies where it was put last, or else in its row. -/
def LiesAsPut (start : Engine α) (ops : List (Operation α)) (i : ℕ) (pos : Vec α) : Prop :=
  (∀ place, start.PutLast i place ops → pos = place) ∧
    ((∀ place, ¬ start.PutLast i place ops) → start.rowPlaces[i]? = some pos)

/-- What the operations so far tell about the nodes of an engine that was laid out in rows. -/
structure Frozen (start : Engine α) (ops : List (Operation α)) (e : Engine α) : Prop where
  held : ∀ i offset, start.HeldSince i offset ops ↔ ⟨i, offset⟩ ∈ e.drags.active
  still : ∀ i b, e.model.body? i = some b → b.velocity = .zero
  placed : ∀ i b, e.model.body? i = some b → start.LiesAsPut ops i b.pos

variable {start e e' : Engine α} {past : List (Operation α)} {op : Operation α}

theorem heldSince_step (hmet : start.Reaches past e) (h : start.Frozen past e) (hstep : RestingStep e op e') (i : ℕ)
    (offset : Vec α) : start.HeldSince i offset (past ++ [op]) ↔ ⟨i, offset⟩ ∈ e'.drags.active := by
  rw [HeldSince, since_append_singleton, meets_iff hmet, ← HeldSince, h.held]
  cases hstep with
  | @grab screen j b held hgrabbed hbody hactive hmodel =>
    have hgrabs : Grabs i offset e (.beginDrag screen) ↔ i = j ∧ offset = b.pos - e.transform.invert screen := by
      constructor
      · rintro ⟨screen', b', hop, hgrabbed', hbody', hoffset⟩
        cases hop
        rw [hgrabbed] at hgrabbed'
        cases hgrabbed'
        rw [hbody] at hbody'
        cases hbody'
        exact ⟨rfl, hoffset⟩
      · rintro ⟨rfl, hoffset⟩
        exact ⟨screen, b, rfl, hgrabbed, hbody, hoffset⟩
    have hactive' : (e.withHeld held).drags.active = e.drags.active ++ [⟨j, b.pos - e.transform.invert screen⟩] :=
      hactive
    rw [hgrabs, hactive', List.mem_append, List.mem_singleton, Drag.mk.injEq]
    simp [or_comm]
  | put j screen =>
    have hdrags : (e.dragTo j screen).drags = e.drags := Held.moveTo_drags j _ e.held
    rw [hdrags]
    simp [Grabs]
  | drop j =>
    have hmem : ⟨i, offset⟩ ∈ (e.endDrag j).drags.active ↔ ⟨i, offset⟩ ∈ e.drags.active ∧ i ≠ j :=
      Held.mem_finish_active j e.held ⟨i, offset⟩
    rw [hmem]
    simp [Grabs, eq_comm]
  | other hop hmodel hdrags =>
    rw [hdrags]
    rcases hop with hop | ⟨screen, rfl, hmissed⟩
    · have hgrabs : ¬ Grabs i offset e op := by
        rintro ⟨screen, b, rfl, _⟩
        exact absurd hop (by simp [Operation.drags])
      have hdrops : op ≠ .endDrag i := by
        rintro rfl
        exact absurd hop (by simp [Operation.drags])
      simp [hgrabs, hdrops]
    · simp [Grabs, hmissed]

theorem still_step (h : start.Frozen past e) (hstep : RestingStep e op e') (i : ℕ) (b : Body α)
    (hb : e'.model.body? i = some b) : b.velocity = .zero := by
  have hmodified : ∀ {node : ℕ} {f : Body α → Body α}, (e.model.modifyBody node f).body? i = some b →
      (∀ c, c.velocity = .zero → (f c).velocity = .zero) → b.velocity = .zero := fun hb hf =>
    Model.forall_body?_modifyBody (P := fun _ c => c.velocity = .zero) (fun k c _ => h.still k c)
      (fun c hc => hf c (h.still _ c hc)) i b hb
  cases hstep with
  | @grab screen j body held _ _ _ hmodel =>
    change held.model.body? i = some b at hb
    rw [hmodel] at hb
    exact hmodified hb fun _ _ => rfl
  | put j screen =>
    change (e.held.moveTo j _).model.body? i = some b at hb
    unfold Held.moveTo at hb
    split at hb
    · exact hmodified hb fun _ hc => hc
    · exact h.still i b hb
  | drop j =>
    change (e.held.finish j).model.body? i = some b at hb
    unfold Held.finish at hb
    split at hb
    · exact hmodified hb fun _ hc => hc
    · exact h.still i b hb
  | other _ hmodel _ =>
    rw [hmodel] at hb
    exact h.still i b hb

theorem LiesAsPut.of_not_puts {i : ℕ} {pos : Vec α} (h : start.LiesAsPut past i pos) (hmet : start.Reaches past e)
    (hnot : ∀ place, ¬ start.Puts i place past e op) : start.LiesAsPut (past ++ [op]) i pos := by
  have hlast : ∀ place, start.PutLast i place (past ++ [op]) ↔ start.PutLast i place past := by
    intro place
    rw [PutLast, since_append_singleton, meets_iff hmet, meets_iff hmet, ← PutLast]
    simp [hnot]
  simpa only [LiesAsPut, hlast] using h

theorem liesAsPut_of_puts {i : ℕ} {pos : Vec α} (hmet : start.Reaches past e)
    (hputs : ∀ place, start.Puts i place past e op ↔ place = pos) : start.LiesAsPut (past ++ [op]) i pos := by
  have hlast : ∀ place, start.PutLast i place (past ++ [op]) ↔ place = pos := by
    intro place
    rw [PutLast, since_append_singleton, meets_iff hmet, meets_iff hmet]
    simp [hputs]
  refine ⟨fun place hplace => ((hlast place).mp hplace).symm, fun hnever => ?_⟩
  exact absurd ((hlast pos).mpr rfl) (hnever pos)

theorem not_puts_of_ne {i : ℕ} (hop : ∀ screen, op ≠ .dragTo i screen) (place : Vec α) :
    ¬ start.Puts i place past e op := by
  rintro ⟨screen, _, rfl, _⟩
  exact hop screen rfl

theorem puts_dragTo_iff (h : start.Frozen past e) (i : ℕ) (screen place : Vec α) :
    start.Puts i place past e (.dragTo i screen) ↔
      ∃ offset, ⟨i, offset⟩ ∈ e.drags.active ∧ place = e.transform.invert screen + offset := by
  constructor
  · rintro ⟨screen', offset, hop, hheld, hplace⟩
    cases hop
    exact ⟨offset, (h.held i offset).mp hheld, hplace⟩
  · rintro ⟨offset, hmem, hplace⟩
    exact ⟨screen, offset, rfl, (h.held i offset).mpr hmem, hplace⟩

theorem placed_step (hmet : start.Reaches past e) (h : start.Frozen past e) (hdistinct : e.drags.nodes.Nodup)
    (hstep : RestingStep e op e') (i : ℕ) (b : Body α) (hb : e'.model.body? i = some b) :
    start.LiesAsPut (past ++ [op]) i b.pos := by
  -- An operation that moves no node leaves places and what was put last.
  have hmodified : ∀ {node : ℕ} {f : Body α → Body α}, (e.model.modifyBody node f).body? i = some b →
      (∀ c, (f c).pos = c.pos) → (∀ i screen, op ≠ .dragTo i screen) →
      start.LiesAsPut (past ++ [op]) i b.pos := fun hb hf hop =>
    Model.forall_body?_modifyBody (P := fun k c => start.LiesAsPut (past ++ [op]) k c.pos)
      (fun k c _ hc => (h.placed k c hc).of_not_puts hmet (not_puts_of_ne (hop k)))
      (fun c hc => hf c ▸ (h.placed _ c hc).of_not_puts hmet (not_puts_of_ne (hop _))) i b hb
  cases hstep with
  | @grab screen j body held _ _ _ hmodel =>
    change held.model.body? i = some b at hb
    rw [hmodel] at hb
    exact hmodified hb (fun _ => rfl) fun _ _ => nofun
  | put j screen =>
    change (e.held.moveTo j (e.transform.invert screen)).model.body? i = some b at hb
    have hothers : ∀ k, k ≠ j → ∀ screen', Operation.dragTo j screen ≠ .dragTo k screen' := by
      rintro k hk screen' hop
      cases hop
      exact hk rfl
    by_cases hheld : ∃ offset, ⟨j, offset⟩ ∈ e.drags.active
    · obtain ⟨offset, hmem⟩ := hheld
      rw [Held.moveTo_of_mem (h := e.held) hdistinct hmem] at hb
      refine Model.forall_body?_modifyBody (P := fun k c => start.LiesAsPut (past ++ [.dragTo j screen]) k c.pos)
        (fun k c hk hc => (h.placed k c hc).of_not_puts hmet (not_puts_of_ne (hothers k hk))) (fun c _ => ?_) i b hb
      refine liesAsPut_of_puts hmet fun place => ?_
      rw [puts_dragTo_iff h]
      constructor
      · rintro ⟨offset', hmem', hplace⟩
        have hsame : (⟨j, offset'⟩ : Drag α) = ⟨j, offset⟩ := List.inj_on_of_nodup_map hdistinct hmem' hmem rfl
        cases hsame
        exact hplace
      · exact fun hplace => ⟨offset, hmem, hplace⟩
    · rw [Held.moveTo_of_not_mem (h := e.held) (fun offset hmem => hheld ⟨offset, hmem⟩)] at hb
      refine (h.placed i b hb).of_not_puts hmet fun place hputs => ?_
      by_cases hi : i = j
      · subst hi
        obtain ⟨offset, hmem, _⟩ := (puts_dragTo_iff h i screen place).mp hputs
        exact hheld ⟨offset, hmem⟩
      · exact not_puts_of_ne (hothers i hi) place hputs
  | drop j =>
    change (e.held.finish j).model.body? i = some b at hb
    unfold Held.finish at hb
    split at hb
    · exact hmodified hb (fun _ => rfl) fun _ _ => nofun
    · exact (h.placed i b hb).of_not_puts hmet (not_puts_of_ne nofun)
  | other hop hmodel _ =>
    rw [hmodel] at hb
    refine (h.placed i b hb).of_not_puts hmet (not_puts_of_ne ?_)
    rintro screen rfl
    rcases hop with hop | ⟨_, hop, _⟩
    · exact absurd hop (by simp [Operation.drags])
    · cases hop

theorem Frozen.step (hmet : start.Reaches past e) (h : start.Frozen past e) (hdistinct : e.drags.nodes.Nodup)
    (hstep : RestingStep e op e') : start.Frozen (past ++ [op]) e' :=
  ⟨heldSince_step hmet h hstep, still_step h hstep, placed_step hmet h hdistinct hstep⟩

/-! ## Runs -/

theorem arrange_frozen (e : Engine α) (hidle : e.drags.active = []) :
    (e.arrange .hierarchical).Frozen [] (e.arrange .hierarchical) := by
  have hbody : ∀ i b, (e.arrange .hierarchical).model.body? i = some b →
      b.velocity = .zero ∧ (e.arrange .hierarchical).rowPlaces[i]? = some b.pos := by
    intro i b hb
    obtain ⟨hi, hget⟩ := (Model.body?_eq_some_iff _ i b).mp hb
    have hrow : b = { (Arrangement.stopped e.model).bodies.get ⟨i, hi⟩ with
        pos := (e.arrange .hierarchical).rowPlaces.get ⟨i, hi⟩ } := hget.symm.trans (Vector.get_ofFn _ _)
    refine ⟨?_, ?_⟩
    · rw [hrow]
      exact congrArg Body.velocity (Vector.get_map _ _ _)
    · rw [hrow]
      exact Vector.getElem?_eq_getElem hi
  refine ⟨fun i offset => ?_, fun i b hb => (hbody i b hb).1, fun i b hb => ?_⟩
  · have hactive : (e.arrange .hierarchical).drags.active = [] := hidle
    rw [hactive]
    exact iff_of_false (not_since_nil _ _) List.not_mem_nil
  · exact ⟨fun place hplace => absurd hplace (not_since_nil _ _), fun _ => (hbody i b hb).2⟩

theorem run_frozen (hzero : Scalar.clamp 0.0 1.0 (0.0 : α) = 0.0) (hstart : start.RestsInRows)
    (hfrozen : start.Frozen [] start) {later : List (Operation α)} (hlater : ∀ op ∈ later, op.laysOut = false)
    {replies : List (Reply α)} (hrun : start.run later = .ok (e, replies)) :
    start.Frozen later e ∧ e.RestsInRows ∧ List.Forall₂ Operation.RestingReply later replies := by
  refine run_history (fun past replies e => (∀ op ∈ past, op.laysOut = false) →
    start.Frozen past e ∧ e.RestsInRows ∧ List.Forall₂ Operation.RestingReply past replies)
    (fun _ => ⟨hfrozen, hstart, .nil⟩) ?_ hrun hlater
  intro past replies met met' op reply hpast ih hstep hops
  obtain ⟨h, hmet, hreplies⟩ := ih fun op' hop' => hops op' (List.mem_append_left _ hop')
  have hlays : op.laysOut = false := hops op (by simp)
  have hresting : RestingStep met op met' := restingStep_of_step hmet hlays hstep
  refine ⟨h.step ⟨replies, hpast⟩ hmet.coherent.distinct hresting, ?_, ?_⟩
  · exact preserved_along RestsInRows (Change.restsInRows hzero) (changes_of_step hmet.inOrder hlays hstep) hmet
  · exact List.rel_append hreplies (.cons (restingReply_of_step hmet.rests hstep) .nil)

theorem step_entersRows (hzero : Scalar.clamp 0.0 1.0 (0.0 : α) = 0.0) (horder : e.viewport.InOrder)
    (hcoherent : e.Coherent) (hop : op.entersRows e.mode = true) :
    ∃ e', e.step op = .ok (e', .done) ∧ e'.RestsInRows ∧ e'.Frozen [] e' := by
  cases op with
  | load graph =>
    have hmode : e.mode = .hierarchical := by simpa [Operation.entersRows] using hop
    refine ⟨e.load graph, rfl, ⟨horder, hmode, ⟨_, load_arranged graph e⟩, load_coherent graph e⟩, ?_⟩
    unfold load
    have hcancelled : e.cancelDrags.mode = .hierarchical := hmode
    dsimp only
    rw [hcancelled]
    exact arrange_frozen _ rfl
  | setLayout mode =>
    cases mode with
    | hierarchical =>
      exact ⟨_, rfl, ⟨horder, rfl, ⟨_, setLayout_arranged _ e⟩, setLayout_coherent hzero _ hcoherent⟩,
        arrange_frozen _ rfl⟩
    | _ => exact absurd hop (by simp [Operation.entersRows])
  | _ => exact absurd hop (by simp [Operation.entersRows])

/-- From a layout in rows to the next layout, whatever happens in between, the simulation rests, time changes nothing,
no node has a velocity, and every node lies in its row or where a hand has put it last. -/
theorem run_rows_frozen {settings : Settings Float32} {before later : List (Operation Float32)}
    {laid : Engine Float32} {replies₁ : List (Reply Float32)} {switch : Operation Float32}
    (hbefore : (ofSettings settings).run before = .ok (laid, replies₁)) (hswitch : switch.entersRows laid.mode = true)
    (hlater : ∀ op ∈ later, op.laysOut = false) :
    ∃ start e replies, laid.step switch = .ok (start, .done) ∧ start.run later = .ok (e, replies) ∧
      (∀ k met, start.Reaches (later.take k) met → met.simulation.running = false) ∧
      List.Forall₂ Operation.RestingReply later replies ∧
      e.model.graph = start.model.graph ∧
      ∀ i b, e.model.body? i = some b → b.velocity = .zero ∧
        (∀ place, start.PutLast i place later → b.pos = place) ∧
        ((∀ place, ¬ start.PutLast i place later) → start.rowPlaces[i]? = some b.pos) := by
  have horder : (ofSettings settings).viewport.InOrder := ofSettings_inOrder (by decide) settings
  have hmoves : Moves (ofSettings settings) laid := moves_of_run horder hbefore
  have hcoherent : laid.Coherent :=
    preserved_along Coherent (Move.coherent clamp_unit_zero) hmoves (ofSettings_coherent settings)
  have hlaid : laid.viewport.InOrder := preserved_along (·.viewport.InOrder) Move.inOrder hmoves horder
  obtain ⟨start, hstep, hstart, hfrozen⟩ := step_entersRows clamp_unit_zero hlaid hcoherent hswitch
  obtain ⟨e, replies, hrun, hchanges⟩ := run_changes later hlater start hstart.inOrder
  obtain ⟨h, hrests, hreplies⟩ := run_frozen clamp_unit_zero hstart hfrozen hlater hrun
  refine ⟨start, e, replies, hstep, hrun, ?_, hreplies, ?_, fun i b hb => ⟨h.still i b hb, h.placed i b hb⟩⟩
  · rintro k met ⟨_, hmet⟩
    have htaken : ∀ op ∈ later.take k, op.laysOut = false := fun op hop => hlater op (List.mem_of_mem_take hop)
    exact (run_frozen clamp_unit_zero hstart hfrozen htaken hmet).2.1.rests
  · exact preserved_along (·.model.graph = _) (fun hchange hsame => hchange.graph.trans hsame) hchanges rfl

/-- A node is carried away and dropped; moving it once more without taking it, time and another size of the canvas leave
it there. -/
def carried : List (Operation Float32) :=
  [.beginDrag ⟨480.0, 320.0⟩, .dragTo 0 ⟨500.0, 300.0⟩, .endDrag 0, .dragTo 0 ⟨0.0, 0.0⟩, .advance 1.0,
    .resize ⟨800.0, 600.0⟩, .settle 5]

theorem carried_rows_frozen :
    ∃ laid replies₁, (ofSettings .standard).run [.load ⟨[.ofId "a"], []⟩] = .ok (laid, replies₁) ∧
      (Operation.setLayout .hierarchical : Operation Float32).entersRows laid.mode = true ∧
      (∀ op ∈ carried, op.laysOut = false) ∧
      ∃ start e replies, laid.step (.setLayout .hierarchical) = .ok (start, .done) ∧
        start.run carried = .ok (e, replies) ∧ List.Forall₂ Operation.RestingReply carried replies ∧
        ∀ b, e.model.body? 0 = some b → b.velocity = .zero ∧
          (∀ place, start.PutLast 0 place carried → b.pos = place) ∧
          ((∀ place, ¬ start.PutLast 0 place carried) → start.rowPlaces[0]? = some b.pos) := by
  have horder : (ofSettings (.standard : Settings Float32)).viewport.InOrder := ofSettings_inOrder (by decide) .standard
  obtain ⟨laid, replies₁, hbefore, _⟩ := run_moves [.load ⟨[.ofId "a"], []⟩] _ horder
  have hswitch : (Operation.setLayout .hierarchical : Operation Float32).entersRows laid.mode = true := rfl
  have hlater : ∀ op ∈ carried, op.laysOut = false := by simp [carried, Operation.laysOut]
  obtain ⟨start, e, replies, hstep, hrun, _, hreplies, _, hnodes⟩ :=
    run_rows_frozen hbefore hswitch hlater
  exact ⟨laid, replies₁, hbefore, hswitch, hlater, start, e, replies, hstep, hrun, hreplies, hnodes 0⟩

example :
    ((ofSettings (.standard : Settings Float32)).run
        (.load ⟨[.ofId "a"], []⟩ :: .setLayout .hierarchical :: carried)).toOption.map
      (fun result => (result.1.model.body? 0).map fun b => b.pos == ⟨500.0, 300.0⟩) = some (some true) := by
  decide +kernel

end Engine

end CallAtlas
