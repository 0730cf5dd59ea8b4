import CallAtlas.Proofs.Engine.Rows

/-! Drags of different nodes do not disturb one another.

A request to take, move or drop a node reads and writes nothing but the grip on that node (`Held.grip`): its body and
the drags that hold it. So a node sees only its own requests (`followAll_grip`), and these are answered as if there
were no others (`followAll_interleaved`).

The temperature is shared by all drags. What a list of requests makes of it depends on two bits only: whether some node
was taken, and whether one is in the hand at the end (`followAll_simulation`). Neither depends on the order in which the
requests for different nodes come. -/

namespace CallAtlas

set_option autoImplicit false

/-! ## Interleavings -/

/-- Two lists are merged into a third, each in its own order. -/
inductive Interleaved {τ : Type} : List τ → List τ → List τ → Prop
  | nil : Interleaved [] [] []
  | left {x : τ} {first second mixed : List τ} :
      Interleaved first second mixed → Interleaved (x :: first) second (x :: mixed)
  | right {x : τ} {first second mixed : List τ} :
      Interleaved first second mixed → Interleaved first (x :: second) (x :: mixed)

namespace Interleaved

variable {τ : Type} {first second mixed : List τ}

theorem perm (h : Interleaved first second mixed) : mixed.Perm (first ++ second) := by
  induction h with
  | nil => exact .nil
  | left _ ih => exact ih.cons _
  | right _ ih => exact (ih.cons _).trans List.perm_middle.symm

theorem filter_left (h : Interleaved first second mixed) {p : τ → Bool} (hsecond : ∀ x ∈ second, p x = false) :
    mixed.filter p = first.filter p := by
  induction h with
  | nil => rfl
  | left _ ih => rw [List.filter_cons, List.filter_cons, ih hsecond]
  | right _ ih =>
    rw [List.filter_cons_of_neg (by rw [hsecond _ List.mem_cons_self]; exact Bool.false_ne_true)]
    exact ih fun x hx => hsecond x (List.mem_cons_of_mem _ hx)

theorem symm (h : Interleaved first second mixed) : Interleaved second first mixed := by
  induction h with
  | nil => exact .nil
  | left _ ih => exact .right ih
  | right _ ih => exact .left ih

theorem append (first second : List τ) : Interleaved first second (first ++ second) := by
  induction first with
  | nil =>
    induction second with
    | nil => exact .nil
    | cons _ _ ih => exact .right ih
  | cons _ _ ih => exact .left ih

theorem eq_of_nil (h : Interleaved [] second mixed) : mixed = second := by
  induction second generalizing mixed with
  | nil => cases h; rfl
  | cons x rest ih =>
    cases h with
    | right h => rw [ih h]

end Interleaved

variable {α : Type}

/-- Models are equal if they have the same graph and the same bodies. -/
theorem Model.ext_body? {m m' : Model α} (hgraph : m.graph = m'.graph) (hbody : ∀ i, m.body? i = m'.body? i) :
    m = m' := by
  obtain ⟨graph, bodies⟩ := m
  obtain ⟨graph', bodies'⟩ := m'
  dsimp only at hgraph
  subst hgraph
  congr 1
  refine Vector.ext fun i hi => ?_
  have hi' := hbody i
  simpa [body?, hi] using hi'

/-! ## Requests -/

/-- What can be asked of the hand. -/
inductive DragRequest (α : Type) where
  | begin (node : ℕ) (pointer : Vec α)
  | moveTo (node : ℕ) (pointer : Vec α)
  | finish (node : ℕ)

def DragRequest.node : DragRequest α → ℕ
  | .begin node _ | .moveTo node _ | .finish node => node

/-- All there is about one node: its body, and the drags that hold it. -/
structure Grip (α : Type) where
  body : Option (Body α)
  drags : List (Drag α)

def Held.grip (h : Held α) (i : ℕ) : Grip α := ⟨h.model.body? i, h.drags.active.filter (·.node = i)⟩

theorem Held.grip_drags_eq_nil_iff (h : Held α) (i : ℕ) : (h.grip i).drags = [] ↔ i ∉ h.drags.nodes := by
  simp [grip, Drags.nodes]

/-- Drags with the same grips on all nodes are the same, in some order. -/
theorem Held.active_perm_of_grip {h h' : Held α} (hgrip : ∀ i, h.grip i = h'.grip i) :
    h.drags.active.Perm h'.drags.active := by
  classical
  rw [List.perm_iff_count]
  intro drag
  have hnode : decide (drag.node = drag.node) = true := by simp
  have hdrags := congrArg (List.count drag ∘ Grip.drags) (hgrip drag.node)
  simpa [grip, List.count_filter hnode] using hdrags

variable [Scalar α]

/-- What a request makes of the grip on its own node, and the answer. -/
def Grip.follow (grip : Grip α) : DragRequest α → Grip α × Option Bool
  | .begin node pointer =>
    match grip.drags, grip.body with
    | [], some body =>
      (⟨some { body with pin := some body.pos, velocity := .zero }, [⟨node, body.pos - pointer⟩]⟩, some true)
    | _, _ => (grip, some false)
  | .moveTo _ pointer =>
    match grip.drags with
    | drag :: _ =>
      let place := pointer + drag.offset
      ({ grip with body := grip.body.map fun b => { b with pin := some place, pos := place } }, none)
    | [] => (grip, none)
  | .finish _ =>
    match grip.drags with
    | _ :: _ => (⟨grip.body.map fun b => { b with pin := none }, []⟩, none)
    | [] => (grip, none)

theorem Grip.follow_begin_of_refused {grip : Grip α} (node : ℕ) (pointer : Vec α)
    (hrefused : grip.drags ≠ [] ∨ grip.body = none) : grip.follow (.begin node pointer) = (grip, some false) := by
  unfold follow
  grind

namespace Held

/-- Follows one request, under a layout that the simulation moves. The answer to taking a node says whether it was
taken. -/
def follow (h : Held α) : DragRequest α → Held α × Option Bool
  | .begin node pointer =>
    match h.begin node pointer true with
    | some h' => (h', some true)
    | none => (h, some false)
  | .moveTo node pointer => (h.moveTo node pointer, none)
  | .finish node => (h.finish node, none)

/-- Follows requests one after the other. Beside each stands its answer. -/
def followAll (h : Held α) : List (DragRequest α) → Held α × List (DragRequest α × Option Bool)
  | [] => (h, [])
  | request :: rest =>
    let (h', answer) := h.follow request
    let (last, answers) := h'.followAll rest
    (last, (request, answer) :: answers)

theorem followAll_append (h : Held α) (first second : List (DragRequest α)) :
    h.followAll (first ++ second) = (((h.followAll first).1.followAll second).1,
      (h.followAll first).2 ++ ((h.followAll first).1.followAll second).2) := by
  induction first generalizing h with
  | nil => rfl
  | cons request rest ih =>
    simp only [List.cons_append, followAll]
    rw [ih]

/-- All that a request can do. -/
inductive Followed (h : Held α) : DragRequest α → Held α → Option Bool → Prop
  | taken {node : ℕ} {pointer : Vec α} {body : Body α} (hfree : node ∉ h.drags.nodes)
      (hbody : h.model.body? node = some body) :
      Followed h (.begin node pointer)
        { drags := { h.drags with active := h.drags.active ++ [⟨node, body.pos - pointer⟩] }
          model := h.model.modifyBody node fun b => { b with pin := some b.pos, velocity := .zero }
          simulation := Held.warm h.drags.alphaTarget h.simulation } (some true)
  | refused {node : ℕ} {pointer : Vec α} (hrefused : node ∈ h.drags.nodes ∨ h.model.body? node = none) :
      Followed h (.begin node pointer) h (some false)
  | moved {node : ℕ} {pointer : Vec α} {drag : Drag α} (hdrag : h.drags.active.find? (·.node = node) = some drag) :
      Followed h (.moveTo node pointer)
        { h with model := h.model.modifyBody node fun b =>
            { b with pin := some (pointer + drag.offset), pos := pointer + drag.offset } } none
  | missed {node : ℕ} {pointer : Vec α} (hfree : node ∉ h.drags.nodes) : Followed h (.moveTo node pointer) h none
  | dropped {node : ℕ} (hheld : node ∈ h.drags.nodes) :
      Followed h (.finish node)
        { drags := { h.drags with active := h.drags.active.filter (·.node ≠ node) }
          model := release node h.model
          simulation := if (h.drags.active.filter (·.node ≠ node)).isEmpty then h.simulation.setAlphaTarget 0.0
            else h.simulation } none
  | idle {node : ℕ} (hfree : node ∉ h.drags.nodes) : Followed h (.finish node) h none

theorem follow_followed (h : Held α) (request : DragRequest α) :
    Followed h request (h.follow request).1 (h.follow request).2 := by
  cases request with
  | begin node pointer =>
    simp only [follow]
    split
    · next hbegin =>
      obtain ⟨hfree, body, hbody, rfl⟩ := (begin_eq_some_iff node pointer true h _).mp hbegin
      exact .taken hfree hbody
    · next hbegin =>
      refine .refused (or_iff_not_imp_left.mpr fun hfree => ?_)
      rw [Option.eq_none_iff_forall_ne_some] at hbegin ⊢
      exact fun body hbody => hbegin _ ((begin_eq_some_iff node pointer true h _).mpr ⟨hfree, body, hbody, rfl⟩)
  | moveTo node pointer =>
    simp only [follow, moveTo]
    split
    · next hdrag => exact .moved hdrag
    · next hdrag =>
      refine .missed ?_
      simpa [Drags.nodes] using hdrag
  | finish node =>
    simp only [follow, finish]
    split
    · next hheld => exact .dropped ((h.drags.isDragging_iff node).mp hheld)
    · next hfree => exact .idle fun hheld => hfree ((h.drags.isDragging_iff node).mpr hheld)

namespace Followed

variable {h h' : Held α} {request : DragRequest α} {answer : Option Bool}

theorem frame (hstep : Followed h request h' answer) :
    h'.model.graph = h.model.graph ∧ h'.drags.alphaTarget = h.drags.alphaTarget := by
  cases hstep with
  | taken | moved | dropped => exact ⟨Model.modifyBody_graph _ _ _, rfl⟩
  | refused | missed | idle => exact ⟨rfl, rfl⟩

/-- A request does to its own node what the grip on that node says. -/
theorem grip_self (hstep : Followed h request h' answer) :
    (h'.grip request.node, answer) = (h.grip request.node).follow request := by
  cases hstep with
  | @taken node pointer body hfree hbody =>
    have hnone := (h.grip_drags_eq_nil_iff node).mpr hfree
    change (Held.grip _ node, _) = Grip.follow ⟨h.model.body? node, (h.grip node).drags⟩ (.begin node pointer)
    rw [grip, Model.body?_modifyBody_self, List.filter_append, hnone, hbody]
    change (Grip.mk _ ((h.grip node).drags ++ _), _) = _
    rw [hnone]
    simp [Grip.follow]
  | @refused node pointer hrefused =>
    refine (Grip.follow_begin_of_refused node pointer ?_).symm
    exact hrefused.imp_left fun hheld hnil => (h.grip_drags_eq_nil_iff node).mp hnil hheld
  | @moved node pointer drag hdrag =>
    rw [← List.head?_filter, List.head?_eq_some_iff] at hdrag
    obtain ⟨rest, hdrags⟩ := hdrag
    change (Held.grip _ node, _) = Grip.follow ⟨h.model.body? node, h.drags.active.filter (·.node = node)⟩ _
    rw [grip, Model.body?_modifyBody_self, hdrags]
    rfl
  | @dropped node hheld =>
    obtain ⟨drag, rest, hdrags⟩ := List.exists_cons_of_ne_nil fun hnil => (h.grip_drags_eq_nil_iff node).mp hnil hheld
    change (Held.grip _ node, _) = (h.grip node).follow (.finish node)
    have hgone : (h.drags.active.filter (·.node ≠ node)).filter (·.node = node) = [] := by simp
    simp only [Grip.follow, hdrags]
    rw [grip, release, Model.body?_modifyBody_self, hgone]
    rfl
  | @missed node pointer hfree | @idle node hfree =>
    have hnone := (h.grip_drags_eq_nil_iff node).mpr hfree
    simp only [DragRequest.node, Grip.follow, hnone]

/-- A request leaves the grip on every other node alone. -/
theorem grip_ne (hstep : Followed h request h' answer) {i : ℕ} (hi : request.node ≠ i) : h'.grip i = h.grip i := by
  cases hstep with
  | @taken node pointer body =>
    have hnode : node ≠ i := hi
    simp [grip, Model.body?_modifyBody_ne node i _ _ hi, hnode]
  | moved => exact congrArg (Grip.mk · _) (Model.body?_modifyBody_ne _ i _ _ hi)
  | @dropped node =>
    have hkeep : ∀ drag ∈ h.drags.active,
        (decide (drag.node = i) && decide (drag.node ≠ node)) = decide (drag.node = i) := by
      intro drag _
      have hnode : node ≠ i := hi
      grind
    rw [grip, grip, release, Model.body?_modifyBody_ne node i _ _ hi, List.filter_filter, List.filter_congr hkeep]
  | refused | missed | idle => rfl

end Followed

/-- A request is answered by what the grip on its own node says, and makes equal grips equal again. -/
theorem follow_congr {h h' : Held α} {request : DragRequest α} (hgrip : h.grip request.node = h'.grip request.node) :
    (h.follow request).2 = (h'.follow request).2 ∧
      ∀ i, h.grip i = h'.grip i → (h.follow request).1.grip i = (h'.follow request).1.grip i := by
  have hself := (h.follow_followed request).grip_self
  rw [hgrip, ← (h'.follow_followed request).grip_self] at hself
  obtain ⟨hown, hanswer⟩ := Prod.mk.inj hself
  refine ⟨hanswer, fun i hi => ?_⟩
  by_cases hnode : request.node = i
  · exact hnode ▸ hown
  · rw [(h.follow_followed request).grip_ne hnode, (h'.follow_followed request).grip_ne hnode, hi]

theorem followAll_frame (h : Held α) (requests : List (DragRequest α)) :
    (h.followAll requests).1.model.graph = h.model.graph ∧
      (h.followAll requests).1.drags.alphaTarget = h.drags.alphaTarget := by
  induction requests generalizing h with
  | nil => exact ⟨rfl, rfl⟩
  | cons request rest ih =>
    obtain ⟨hgraph, htarget⟩ := (h.follow_followed request).frame
    obtain ⟨hgraph', htarget'⟩ := ih (h.follow request).1
    exact ⟨hgraph'.trans hgraph, htarget'.trans htarget⟩

/-- A node sees only its own requests. -/
theorem followAll_grip {h h' : Held α} {i : ℕ} (hgrip : h.grip i = h'.grip i) (requests : List (DragRequest α)) :
    (h.followAll requests).1.grip i = (h'.followAll (requests.filter (·.node = i))).1.grip i := by
  induction requests generalizing h h' with
  | nil => exact hgrip
  | cons request rest ih =>
    by_cases hi : request.node = i
    · subst hi
      rw [List.filter_cons_of_pos (by simp)]
      exact ih ((follow_congr hgrip).2 _ hgrip)
    · rw [List.filter_cons_of_neg (by simpa using hi)]
      exact ih (((h.follow_followed request).grip_ne hi).trans hgrip)

/-- Two lists of requests for different nodes get, however they are merged, the answers that each gets alone. -/
theorem followAll_answers {first second mixed : List (DragRequest α)} (hmixed : Interleaved first second mixed)
    (hdisjoint : ∀ a ∈ first, ∀ b ∈ second, a.node ≠ b.node) {h h₁ h₂ : Held α}
    (hfirst : ∀ a ∈ first, h.grip a.node = h₁.grip a.node)
    (hsecond : ∀ b ∈ second, h.grip b.node = h₂.grip b.node) :
    Interleaved (h₁.followAll first).2 (h₂.followAll second).2 (h.followAll mixed).2 := by
  -- `h₁` and `h₂` follow one list each; what the other list does meanwhile is out of their sight.
  induction hmixed generalizing h h₁ h₂ with
  | nil => exact .nil
  | @left a first second mixed _ ih =>
    obtain ⟨hanswer, hgrips⟩ := follow_congr (hfirst a List.mem_cons_self)
    simp only [followAll]
    rw [hanswer]
    refine .left (ih (fun x hx => hdisjoint x (List.mem_cons_of_mem a hx)) (fun x hx => ?_) fun y hy => ?_)
    · exact hgrips x.node (hfirst x (List.mem_cons_of_mem a hx))
    · rw [(h.follow_followed a).grip_ne (hdisjoint a List.mem_cons_self y hy), hsecond y hy]
  | @right b first second mixed _ ih =>
    obtain ⟨hanswer, hgrips⟩ := follow_congr (hsecond b List.mem_cons_self)
    simp only [followAll]
    rw [hanswer]
    refine .right (ih (fun x hx y hy => hdisjoint x hx y (List.mem_cons_of_mem b hy)) (fun x hx => ?_) fun y hy => ?_)
    · rw [(h.follow_followed b).grip_ne (hdisjoint x hx b List.mem_cons_self).symm, hfirst x hx]
    · exact hgrips y.node (hsecond y (List.mem_cons_of_mem b hy))

/-! ## The shared temperature -/

/-- Whether some node was taken. -/
def begun (answers : List (DragRequest α × Option Bool)) : Bool := answers.any (·.2 = some true)

/-- What drags make of the simulation. `began` tells whether a node was taken, and `idle` whether none is in the hand at
the end. -/
def tempered (h : Held α) (began idle : Bool) : Simulation α :=
  match began, idle with
  | true, false => warm h.drags.alphaTarget h.simulation
  | true, true => (warm h.drags.alphaTarget h.simulation).setAlphaTarget 0.0
  | false, false => h.simulation
  | false, true => if h.drags.isIdle then h.simulation else h.simulation.setAlphaTarget 0.0

theorem warm_warm (target : α) (s : Simulation α) : warm target (warm target s) = warm target s := by
  unfold warm
  cases hrunning : s.running <;> simp [Simulation.setAlphaTarget, Simulation.restart, hrunning]

theorem warm_setAlphaTarget (target target' : α) (s : Simulation α) :
    warm target (s.setAlphaTarget target') = warm target s := by
  unfold warm
  cases hrunning : s.running <;> simp [Simulation.setAlphaTarget, Simulation.restart, hrunning]

/-- A request that takes nothing leaves an empty hand empty. -/
theorem Followed.isIdle {h h' : Held α} {request : DragRequest α} {answer : Option Bool}
    (hstep : Followed h request h' answer) (hanswer : answer ≠ some true) (hidle : h.drags.isIdle = true) :
    h'.drags.isIdle = true := by
  cases hstep with
  | taken => exact absurd rfl hanswer
  | dropped =>
    rw [Drags.isIdle, List.isEmpty_iff] at hidle ⊢
    rw [hidle, List.filter_nil]
  | moved | refused | missed | idle => exact hidle

/-- Something is in the hand only if it was there before or was taken. -/
theorem begun_of_not_idle {h : Held α} (hidle : h.drags.isIdle = true) (requests : List (DragRequest α))
    (hheld : (h.followAll requests).1.drags.isIdle = false) : begun (h.followAll requests).2 = true := by
  induction requests generalizing h with
  | nil => exact absurd (hidle.symm.trans hheld) Bool.true_eq_false_eq_False
  | cons request rest ih =>
    by_cases hanswer : (h.follow request).2 = some true
    · simp [followAll, begun, hanswer]
    · have hrest := ih ((h.follow_followed request).isIdle hanswer hidle) hheld
      simp only [followAll, begun, List.any_cons, Bool.or_eq_true]
      exact Or.inr hrest

/-- What one request does to the simulation is part of what all of them do. The premise excludes a hand that fills
without anything being taken. -/
theorem Followed.tempered {h h' : Held α} {request : DragRequest α} {answer : Option Bool}
    (hstep : Followed h request h' answer) {began idle : Bool}
    (hfilled : h'.drags.isIdle = true → idle = false → began = true) :
    h'.tempered began idle = h.tempered (decide (answer = some true) || began) idle := by
  cases hstep with
  | taken =>
    cases began <;> cases idle <;> simp [Held.tempered, warm_warm, Drags.isIdle]
  | @dropped node hheld =>
    have hbusy : h.drags.isIdle = false := by
      rw [Drags.isIdle, List.isEmpty_eq_false_iff]
      exact fun hnil => List.ne_nil_of_mem hheld (by rw [Drags.nodes, hnil, List.map_nil])
    -- Dropping the last node cools the simulation, and only taking another one can warm it again.
    cases hlast : (h.drags.active.filter (·.node ≠ node)).isEmpty with
    | true =>
      have hbegan := hfilled hlast
      cases began <;> cases idle <;> simp_all [Held.tempered, Drags.isIdle, warm_setAlphaTarget]
    | false =>
      cases began <;> cases idle <;> simp_all [Held.tempered, Drags.isIdle]
  | moved | refused | missed | idle => simp [Held.tempered]

/-- What a list of requests makes of the simulation depends only on whether some node was taken and whether one is in
the hand at the end. -/
theorem followAll_simulation (h : Held α) (requests : List (DragRequest α)) :
    (h.followAll requests).1.simulation =
      h.tempered (begun (h.followAll requests).2) (h.followAll requests).1.drags.isIdle := by
  induction requests generalizing h with
  | nil =>
    cases hidle : h.drags.isIdle <;> simp [followAll, begun, tempered, hidle]
  | cons request rest ih =>
    exact (ih (h.follow request).1).trans
      ((h.follow_followed request).tempered fun hidle hheld => begun_of_not_idle hidle rest hheld)

/-! ## Any order -/

/-- Requests for different nodes leave the same grips in any order. -/
theorem followAll_grip_eq (h : Held α) {first second mixed : List (DragRequest α)}
    (hdisjoint : ∀ a ∈ first, ∀ b ∈ second, a.node ≠ b.node) (hmixed : Interleaved first second mixed) (i : ℕ) :
    (h.followAll mixed).1.grip i = (h.followAll (first ++ second)).1.grip i := by
  have hfilter : mixed.filter (·.node = i) = (first ++ second).filter (·.node = i) := by
    by_cases hi : ∃ a ∈ first, a.node = i
    · -- Nothing in the second list concerns a node of the first.
      obtain ⟨a, ha, rfl⟩ := hi
      have hother : ∀ b ∈ second, decide (b.node = a.node) = false :=
        fun b hb => decide_eq_false (hdisjoint a ha b hb).symm
      rw [hmixed.filter_left hother, (Interleaved.append first second).filter_left hother]
    · have hother : ∀ a ∈ first, decide (a.node = i) = false :=
        fun a ha => decide_eq_false fun hnode => hi ⟨a, ha, hnode⟩
      rw [hmixed.symm.filter_left hother, (Interleaved.append first second).symm.filter_left hother]
  rw [followAll_grip rfl mixed, followAll_grip rfl (first ++ second), hfilter]

/-- Requests that follow others for different nodes are answered as if they came first. -/
theorem followAll_append_answers (h : Held α) {first second : List (DragRequest α)}
    (hdisjoint : ∀ a ∈ first, ∀ b ∈ second, a.node ≠ b.node) :
    (h.followAll (first ++ second)).2 = (h.followAll first).2 ++ (h.followAll second).2 := by
  have hgrip : ∀ b ∈ second, (h.followAll first).1.grip b.node = h.grip b.node := by
    intro b hb
    have hnone : first.filter (·.node = b.node) = [] := by
      rw [List.filter_eq_nil_iff]
      exact fun a ha => by simpa using hdisjoint a ha b hb
    rw [followAll_grip rfl first, hnone]
    rfl
  have hsecond : Interleaved (h.followAll []).2 (h.followAll second).2 ((h.followAll first).1.followAll second).2 :=
    followAll_answers (.append [] second) (by simp) (by simp) hgrip
  rw [followAll_append, hsecond.eq_of_nil]

/-- Two lists of requests for different nodes can be merged in any way that keeps the order of each. Every node comes to
lie, to be pinned and to be held as if the first list were followed before the second, the simulation is left as hot and
as awake, and each request gets the answer that it gets when its own list is followed alone. -/
theorem followAll_interleaved (h : Held α) {first second mixed : List (DragRequest α)}
    (hdisjoint : ∀ a ∈ first, ∀ b ∈ second, a.node ≠ b.node) (hmixed : Interleaved first second mixed) :
    let run := h.followAll mixed
    let inTurn := h.followAll (first ++ second)
    (inTurn.2 = (h.followAll first).2 ++ (h.followAll second).2 ∧
        Interleaved (h.followAll first).2 (h.followAll second).2 run.2) ∧
      run.1.model = inTurn.1.model ∧ run.1.drags.active.Perm inTurn.1.drags.active ∧
      run.1.drags.alphaTarget = inTurn.1.drags.alphaTarget ∧ run.1.simulation = inTurn.1.simulation := by
  have hgrip := h.followAll_grip_eq hdisjoint hmixed
  have hactive := active_perm_of_grip hgrip
  have hturn := h.followAll_append_answers hdisjoint
  have hrun : Interleaved (h.followAll first).2 (h.followAll second).2 (h.followAll mixed).2 :=
    followAll_answers hmixed hdisjoint (fun _ _ => rfl) fun _ _ => rfl
  obtain ⟨hgraph, htarget⟩ := h.followAll_frame mixed
  obtain ⟨hgraph', htarget'⟩ := h.followAll_frame (first ++ second)
  refine ⟨⟨hturn, hrun⟩, ?_, hactive, htarget.trans htarget'.symm, ?_⟩
  · exact Model.ext_body? (hgraph.trans hgraph'.symm) fun i => congrArg Grip.body (hgrip i)
  · have hbegun : begun (h.followAll mixed).2 = begun (h.followAll (first ++ second)).2 := by
      rw [hturn]
      exact hrun.perm.any_eq
    have hidle : (h.followAll mixed).1.drags.isIdle = (h.followAll (first ++ second)).1.drags.isIdle :=
      hactive.isEmpty_eq
    rw [followAll_simulation, followAll_simulation, hbegun, hidle]

/-- Two hands on two nodes, one of which lets go while the other asks for a node that does not exist. -/
theorem crossed_hands_any_order :
    let h : Held Float32 := ⟨.none 0.3, .ofGraph (.ofSpec ⟨[.ofId "a", .ofId "b"], []⟩), .ofSettings .standard⟩
    let first : List (DragRequest Float32) := [.begin 0 .zero, .moveTo 0 ⟨3, 4⟩, .finish 0]
    let second : List (DragRequest Float32) := [.begin 1 .zero, .begin 7 .zero]
    let mixed : List (DragRequest Float32) :=
      [.begin 1 .zero, .begin 0 .zero, .begin 7 .zero, .moveTo 0 ⟨3, 4⟩, .finish 0]
    (∀ a ∈ first, ∀ b ∈ second, a.node ≠ b.node) ∧ Interleaved first second mixed ∧
      (h.followAll mixed).2.map (·.2) = [some true, some true, some false, none, none] ∧
      (h.followAll mixed).1.model = (h.followAll (first ++ second)).1.model ∧
      (h.followAll mixed).1.simulation = (h.followAll (first ++ second)).1.simulation := by
  intro h first second mixed
  have hdisjoint : ∀ a ∈ first, ∀ b ∈ second, a.node ≠ b.node := by simp [first, second, DragRequest.node]
  have hmixed : Interleaved first second mixed := .right (.left (.right (.left (.left .nil))))
  obtain ⟨-, hmodel, -, -, hsimulation⟩ := h.followAll_interleaved hdisjoint hmixed
  exact ⟨hdisjoint, hmixed, rfl, hmodel, hsimulation⟩

end Held

end CallAtlas
