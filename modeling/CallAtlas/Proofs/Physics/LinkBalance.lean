import Mathlib
import CallAtlas.Proofs.Graph.Adjacency
import CallAtlas.Proofs.Number.Exact
import CallAtlas.Physics.Force

/-! What the link force does to the velocities of nodes, without rounding.

Each link corrects both of its ends along the way between them, one in the direction of the other and inversely to
their degrees. So the sum of all velocities, each taken as often as its node has links, stays as it is, although every
link finds the velocities that the links before it have left. Nothing depends on how lengths are measured or on the way
that coincident ends are given (`Scalar.realWith`). -/

namespace CallAtlas

set_option autoImplicit false

open Scalar

/-! ## One link -/

section

variable {α : Type} [Scalar α] {n : ℕ}

/-- From where the source is heading to where the target is. -/
def Link.delta (bodies : Vector (Body α) n) (link : Link n) : Vec α :=
  let heading (k : Fin n) := (bodies.get k).pos + (bodies.get k).velocity
  let apart := heading link.target - heading link.source
  if apart.lengthSq < coincidentSq then fallbackDelta link.source link.target else apart

namespace LinkForce

def weight (degrees : Vector ℕ n) (k : Fin n) : α := (max (degrees.get k) 1 : ℕ)

/-- How much of the way between the ends is corrected. -/
def share (force : LinkForce α) (alpha : α) (degrees : Vector ℕ n) (bodies : Vector (Body α) n) (link : Link n) : α :=
  ((link.delta bodies).length - force.distance) / (link.delta bodies).length * alpha *
    (1.0 / smaller (weight degrees link.source) (weight degrees link.target))

/-- The part of a correction that the target takes. -/
def bias (degrees : Vector ℕ n) (link : Link n) : α :=
  weight degrees link.source / (weight degrees link.source + weight degrees link.target)

variable (force : LinkForce α) (alpha : α) (degrees : Vector ℕ n) (bodies : Vector (Body α) n) {link : Link n}

theorem applyTo_of_loop (h : link.isLoop = true) : force.applyTo alpha degrees bodies link = bodies :=
  if_pos h

theorem applyTo_of_not_loop (h : link.isLoop = false) :
    force.applyTo alpha degrees bodies link =
      let correction := link.delta bodies * force.share alpha degrees bodies link
      let pushed := bodies.set link.target
        { bodies.get link.target with
          velocity := (bodies.get link.target).velocity - correction * (bias degrees link : α) } link.target.isLt
      pushed.set link.source
        { pushed.get link.source with
          velocity := (pushed.get link.source).velocity + correction * (1.0 - bias degrees link : α) }
        link.source.isLt :=
  if_neg (by simp [h])

theorem applyTo_get_target (h : link.isLoop = false) :
    (force.applyTo alpha degrees bodies link).get link.target =
      { bodies.get link.target with
        velocity := (bodies.get link.target).velocity -
          link.delta bodies * force.share alpha degrees bodies link * (bias degrees link : α) } := by
  have hne : link.source ≠ link.target := by simpa [Link.isLoop] using h
  simp only [applyTo_of_not_loop force alpha degrees bodies h, Vector.get_eq_getElem]
  rw [Vector.getElem_set_ne _ _ (Fin.val_ne_of_ne hne), Vector.getElem_set_self]

theorem applyTo_get_source (h : link.isLoop = false) :
    (force.applyTo alpha degrees bodies link).get link.source =
      { bodies.get link.source with
        velocity := (bodies.get link.source).velocity +
          link.delta bodies * force.share alpha degrees bodies link * (1.0 - bias degrees link : α) } := by
  have hne : link.target ≠ link.source := by simpa [Link.isLoop, eq_comm] using h
  simp only [applyTo_of_not_loop force alpha degrees bodies h, Vector.get_eq_getElem]
  rw [Vector.getElem_set_self, Vector.getElem_set_ne _ _ (Fin.val_ne_of_ne hne)]

theorem applyTo_get_of_ne (h : link.isLoop = false) {k : Fin n} (hsource : k ≠ link.source)
    (htarget : k ≠ link.target) : (force.applyTo alpha degrees bodies link).get k = bodies.get k := by
  simp only [applyTo_of_not_loop force alpha degrees bodies h, Vector.get_eq_getElem]
  rw [Vector.getElem_set_ne _ _ (Fin.val_ne_of_ne hsource.symm),
    Vector.getElem_set_ne _ _ (Fin.val_ne_of_ne htarget.symm)]

end LinkForce

end

/-! ## Real arithmetic -/

/-- The real numbers with any lengths, and with any functions in the place of sine and cosine, by which the way between
coincident nodes is chosen. -/
@[reducible] noncomputable def Scalar.realWith (hypot : ℝ → ℝ → ℝ) (sin cos : ℝ → ℝ) : Scalar ℝ :=
  { realScalar with hypot := hypot, sin := sin, cos := cos }

/-- The velocities of all nodes, each as often as its node has links. -/
noncomputable def weightedVelocity (g : CallGraph) (bodies : Vector (Body ℝ) g.size) : Vec ℝ :=
  ⟨∑ i, (g.degree i : ℝ) * (bodies.get i).velocity.x, ∑ i, (g.degree i : ℝ) * (bodies.get i).velocity.y⟩

/-- Only the velocities of the ends of a link change. They change along `delta`, the source with it and the target
against it, by shares of `pull` that are inverse to the degrees. -/
structure PulledAlong (g : CallGraph) (link : Link g.size) (delta : Vec ℝ) (pull : ℝ)
    (before after : Vector (Body ℝ) g.size) : Prop where
  linked : 0 < g.degree link.source ∧ 0 < g.degree link.target
  source : after.get link.source =
    { before.get link.source with
      velocity := (before.get link.source).velocity +
        delta * (pull * (g.degree link.target / (g.degree link.source + g.degree link.target)) : ℝ) }
  target : after.get link.target =
    { before.get link.target with
      velocity := (before.get link.target).velocity -
        delta * (pull * (g.degree link.source / (g.degree link.source + g.degree link.target)) : ℝ) }
  others : ∀ k, k ≠ link.source → k ≠ link.target → after.get k = before.get k

theorem CallGraph.degree_pos {g : CallGraph} {link : Link g.size} (hlink : link ∈ g.links) (h : link.isLoop = false) :
    0 < g.degree link.source ∧ 0 < g.degree link.target := by
  have hproper : link ∈ g.properLinks := List.mem_filter.mpr ⟨hlink, by simp [h]⟩
  rw [degree_eq_countP, degree_eq_countP, List.countP_pos_iff, List.countP_pos_iff]
  exact ⟨⟨link, hproper, by simp⟩, ⟨link, hproper, by simp⟩⟩

theorem sum_eq_of_balanced {n : ℕ} (weight before after : Fin n → ℝ) {i j : Fin n} (hij : i ≠ j)
    (hothers : ∀ k, k ≠ i → k ≠ j → after k = before k)
    (hends : weight i * (after i - before i) + weight j * (after j - before j) = 0) :
    ∑ k, weight k * after k = ∑ k, weight k * before k := by
  rw [← sub_eq_zero, ← Finset.sum_sub_distrib]
  simp only [← mul_sub]
  rw [Fintype.sum_eq_add i j hij, hends]
  rintro k ⟨hki, hkj⟩
  rw [hothers k hki hkj, sub_self, mul_zero]

theorem PulledAlong.weightedVelocity_eq {g : CallGraph} {link : Link g.size} {delta : Vec ℝ} {pull : ℝ}
    {before after : Vector (Body ℝ) g.size} (hloop : link.isLoop = false)
    (h : PulledAlong g link delta pull before after) :
    weightedVelocity g after = weightedVelocity g before := by
  have hne : link.source ≠ link.target := by simpa [Link.isLoop] using hloop
  have hsource : (0 : ℝ) < g.degree link.source := Nat.cast_pos.mpr h.linked.1
  have hsum : (g.degree link.source + g.degree link.target : ℝ) ≠ 0 := by positivity
  rw [weightedVelocity, weightedVelocity, Vec.mk.injEq]
  constructor
  · refine sum_eq_of_balanced _ _ _ hne (fun k hk hk' => by rw [h.others k hk hk']) ?_
    rw [h.source, h.target]
    simp only [Vec.add_x, Vec.sub_x, Vec.scale_x]
    field_simp
    ring
  · refine sum_eq_of_balanced _ _ _ hne (fun k hk hk' => by rw [h.others k hk hk']) ?_
    rw [h.source, h.target]
    simp only [Vec.add_y, Vec.sub_y, Vec.scale_y]
    field_simp
    ring

namespace LinkForce

section

variable (hypot : ℝ → ℝ → ℝ) (sin cos : ℝ → ℝ)

theorem weight_realWith {g : CallGraph} {k : Fin g.size} (h : 0 < g.degree k) :
    @weight ℝ (realWith hypot sin cos) g.size g.degrees k = g.degree k := by
  change ((max (g.degree k) 1 : ℕ) : ℝ) = g.degree k
  rw [max_eq_left h]

theorem share_realWith {g : CallGraph} (force : LinkForce ℝ) (alpha : ℝ) (bodies : Vector (Body ℝ) g.size)
    {link : Link g.size} (hsource : 0 < g.degree link.source) (htarget : 0 < g.degree link.target) :
    let delta : Vec ℝ := @Link.delta ℝ (realWith hypot sin cos) g.size bodies link
    let length := hypot delta.x delta.y
    @share ℝ (realWith hypot sin cos) g.size force alpha g.degrees bodies link =
      (length - force.distance) / length * alpha / min (g.degree link.source : ℝ) (g.degree link.target) := by
  intro delta length
  have hsmaller : @smaller ℝ (realWith hypot sin cos) (g.degree link.source) (g.degree link.target) =
      min (g.degree link.source : ℝ) (g.degree link.target) := smaller_real _ _
  unfold share
  rw [weight_realWith hypot sin cos hsource, weight_realWith hypot sin cos htarget, hsmaller]
  change (length - force.distance) / length * alpha * (1.0 / min (g.degree link.source : ℝ) (g.degree link.target)) = _
  norm_num
  rfl

theorem bias_realWith {g : CallGraph} {link : Link g.size} (hsource : 0 < g.degree link.source)
    (htarget : 0 < g.degree link.target) :
    @bias ℝ (realWith hypot sin cos) g.size g.degrees link =
      g.degree link.source / (g.degree link.source + g.degree link.target) := by
  unfold bias
  rw [weight_realWith hypot sin cos hsource, weight_realWith hypot sin cos htarget]

theorem applyTo_pulledAlong (g : CallGraph) (force : LinkForce ℝ) (alpha : ℝ) (bodies : Vector (Body ℝ) g.size)
    {link : Link g.size} (hlink : link ∈ g.links) (hloop : link.isLoop = false) :
    let delta : Vec ℝ := @Link.delta ℝ (realWith hypot sin cos) g.size bodies link
    let length := hypot delta.x delta.y
    PulledAlong g link delta
      ((length - force.distance) / length * alpha / min (g.degree link.source : ℝ) (g.degree link.target)) bodies
      (@applyTo ℝ (realWith hypot sin cos) g.size force alpha g.degrees bodies link) := by
  intro delta length
  let scalars := realWith hypot sin cos
  obtain ⟨hsource, htarget⟩ := CallGraph.degree_pos hlink hloop
  have hsum : (g.degree link.source + g.degree link.target : ℝ) ≠ 0 := by positivity
  rw [← share_realWith hypot sin cos force alpha bodies hsource htarget]
  refine ⟨⟨hsource, htarget⟩, ?_, ?_, fun k => ?_⟩
  · rw [@applyTo_get_source ℝ scalars g.size force alpha g.degrees bodies link hloop,
      bias_realWith hypot sin cos hsource htarget]
    have hrest : (1.0 : ℝ) - g.degree link.source / (g.degree link.source + g.degree link.target) =
        g.degree link.target / (g.degree link.source + g.degree link.target) := by
      field_simp
      norm_num
    rw [← hrest, ← Vec.scale_scale]
  · rw [@applyTo_get_target ℝ scalars g.size force alpha g.degrees bodies link hloop,
      bias_realWith hypot sin cos hsource htarget, ← Vec.scale_scale]
  · exact @applyTo_get_of_ne ℝ scalars g.size force alpha g.degrees bodies link hloop k

theorem applyTo_weightedVelocity (g : CallGraph) (force : LinkForce ℝ) (alpha : ℝ) (bodies : Vector (Body ℝ) g.size)
    {link : Link g.size} (hlink : link ∈ g.links) :
    weightedVelocity g (@applyTo ℝ (realWith hypot sin cos) g.size force alpha g.degrees bodies link) =
      weightedVelocity g bodies := by
  cases hloop : link.isLoop with
  | true => rw [@applyTo_of_loop ℝ (realWith hypot sin cos) g.size force alpha g.degrees bodies link hloop]
  | false => exact (applyTo_pulledAlong hypot sin cos g force alpha bodies hlink hloop).weightedVelocity_eq hloop

theorem foldl_applyTo_weightedVelocity (g : CallGraph) (force : LinkForce ℝ) (alpha : ℝ) (links : List (Link g.size))
    (hlinks : links ⊆ g.links) (bodies : Vector (Body ℝ) g.size) :
    weightedVelocity g (links.foldl (@applyTo ℝ (realWith hypot sin cos) g.size force alpha g.degrees) bodies) =
      weightedVelocity g bodies := by
  induction links generalizing bodies with
  | nil => rfl
  | cons link rest ih =>
    rw [List.foldl_cons, ih (List.subset_of_cons_subset hlinks)]
    exact applyTo_weightedVelocity hypot sin cos g force alpha bodies (hlinks List.mem_cons_self)

/-- Without rounding, and whatever lengths and ways between coincident nodes there are, the link force keeps the
velocities of the nodes in balance, each weighted by the degree of its node. A link pulls its two ends along the way
between them, and a loop pulls nothing. -/
theorem apply_balanced (g : CallGraph) (force : LinkForce ℝ) (alpha : ℝ) (bodies : Vector (Body ℝ) g.size) :
    weightedVelocity g (@apply ℝ (realWith hypot sin cos) force alpha g bodies) = weightedVelocity g bodies ∧
    ∀ link ∈ g.links,
      let delta : Vec ℝ := @Link.delta ℝ (realWith hypot sin cos) g.size bodies link
      let length := hypot delta.x delta.y
      let after := @applyTo ℝ (realWith hypot sin cos) g.size force alpha g.degrees bodies link
      (link.isLoop = true → after = bodies) ∧
      (link.isLoop = false →
        PulledAlong g link delta
          ((length - force.distance) / length * alpha / min (g.degree link.source : ℝ) (g.degree link.target))
          bodies after) := by
  refine ⟨?_, fun link hlink => ⟨?_, ?_⟩⟩
  · exact foldl_applyTo_weightedVelocity hypot sin cos g force alpha g.links (List.Subset.refl _) bodies
  · exact @applyTo_of_loop ℝ (realWith hypot sin cos) g.size force alpha g.degrees bodies link
  · exact applyTo_pulledAlong hypot sin cos g force alpha bodies hlink

end

/-- In a chain of three nodes the middle one has twice the degree of the others. Its loop counts for nothing. -/
theorem chain_balanced :
    let g := CallGraph.ofSpec ⟨[.ofId "a", .ofId "b", .ofId "c"], [⟨"a", "b"⟩, ⟨"b", "b"⟩, ⟨"b", "c"⟩]⟩
    let bodies : Vector (Body ℝ) g.size := ((Model.ofGraph g).scatter .zero).bodies
    let force : LinkForce ℝ := ⟨100⟩
    let first : Link g.size := ⟨⟨0, by decide⟩, ⟨1, by decide⟩⟩
    let loop : Link g.size := ⟨⟨1, by decide⟩, ⟨1, by decide⟩⟩
    weightedVelocity g (force.apply 1 g bodies) = weightedVelocity g bodies ∧
      (g.degree first.source = 1 ∧ g.degree first.target = 2) ∧
      (first ∈ g.links ∧ ∃ pull, PulledAlong g first (first.delta bodies) pull bodies
        (force.applyTo 1 g.degrees bodies first)) ∧
      loop ∈ g.links ∧ force.applyTo 1 g.degrees bodies loop = bodies := by
  intro g bodies force first loop
  have hlist : g.links = [first, loop, ⟨⟨1, by decide⟩, ⟨2, by decide⟩⟩] := by cbv
  have hfirst : first ∈ g.links := by simp [hlist]
  have hloop : loop ∈ g.links := by simp [hlist]
  obtain ⟨hbalanced, hlinks⟩ := apply_balanced Scalar.hypot Real.sin Real.cos g force 1 bodies
  refine ⟨hbalanced, ⟨by cbv, by cbv⟩, ⟨hfirst, _, (hlinks first hfirst).2 rfl⟩, hloop, ?_⟩
  exact (hlinks loop hloop).1 rfl

end LinkForce

end CallAtlas
