import CallAtlas.Proofs.Text.Bytes
import CallAtlas.Search.Index

/-! The matches that are listed first, whatever the score and in whatever order the matches are kept.

`Precedes` is the order of the list: by falling score, and by the bytes of the ids where scores are equal. Two different
ids are never on a par, so a set of matches can be listed in one way only, and a shorter list is the start of a longer
one (`rankedBy_lists_first`). -/

namespace CallAtlas.Search

set_option autoImplicit false

def Precedes (score : String → Int) (a b : String) : Prop :=
  score b < score a ∨ score a = score b ∧ Text.bytes a < Text.bytes b

variable {score : String → Int}

theorem rankedBefore_iff {a b : String} : rankedBefore score a b = true ↔ a = b ∨ Precedes score a b := by
  rw [Precedes, Text.bytes_lt_bytes_iff, rankedBefore]
  simp only [Bool.or_eq_true, decide_eq_true_eq, Bool.and_eq_true, Bool.not_eq_true', decide_eq_false_iff_not, not_lt,
    le_iff_eq_or_lt]
  constructor
  · rintro (hscore | ⟨hscore, rfl | hlt⟩)
    · exact Or.inr (Or.inl hscore)
    · exact Or.inl rfl
    · exact Or.inr (Or.inr ⟨hscore, hlt⟩)
  · rintro (rfl | hscore | ⟨hscore, hlt⟩)
    · exact Or.inr ⟨rfl, Or.inl rfl⟩
    · exact Or.inl hscore
    · exact Or.inr ⟨hscore, Or.inr hlt⟩

theorem Precedes.trans {a b c : String} (hab : Precedes score a b) (hbc : Precedes score b c) : Precedes score a c := by
  rcases hab with hab | ⟨hab, hbytes⟩ <;> rcases hbc with hbc | ⟨hbc, hbytes'⟩
  · exact Or.inl (hbc.trans hab)
  · exact Or.inl (hbc ▸ hab)
  · exact Or.inl (hab ▸ hbc)
  · exact Or.inr ⟨hab.trans hbc, List.lt_trans hbytes hbytes'⟩

theorem not_precedes_self (a : String) : ¬ Precedes score a a := by
  rintro (h | ⟨-, h⟩)
  · exact lt_irrefl _ h
  · exact List.lt_irrefl _ h

theorem precedes_or_precedes {a b : String} (hne : a ≠ b) : Precedes score a b ∨ Precedes score b a := by
  rcases lt_trichotomy (score a) (score b) with h | h | h
  · exact Or.inr (Or.inl h)
  · rcases lt_or_gt_of_ne hne with hlt | hgt
    · exact Or.inl (Or.inr ⟨h, Text.bytes_lt_bytes_iff.mpr hlt⟩)
    · exact Or.inr (Or.inr ⟨h.symm, Text.bytes_lt_bytes_iff.mpr hgt⟩)
  · exact Or.inl (Or.inl h)

/-! ## Sorted matches -/

theorem rankedBefore_trans (a b c : String) (hab : rankedBefore score a b = true)
    (hbc : rankedBefore score b c = true) : rankedBefore score a c = true := by
  rw [rankedBefore_iff] at *
  rcases hab with rfl | hab
  · exact hbc
  · rcases hbc with rfl | hbc
    · exact Or.inr hab
    · exact Or.inr (hab.trans hbc)

theorem rankedBefore_total (a b : String) : (rankedBefore score a b || rankedBefore score b a) = true := by
  rw [Bool.or_eq_true, rankedBefore_iff, rankedBefore_iff]
  by_cases hne : a = b
  · exact Or.inl (Or.inl hne)
  · rcases precedes_or_precedes hne with h | h
    · exact Or.inl (Or.inr h)
    · exact Or.inr (Or.inr h)

theorem pairwise_rankedBefore (matched : List String) :
    (matched.mergeSort (rankedBefore score)).Pairwise fun a b => rankedBefore score a b = true :=
  List.pairwise_mergeSort rankedBefore_trans rankedBefore_total matched

theorem mergeSort_precedes {matched : List String} (h : matched.Nodup) :
    (matched.mergeSort (rankedBefore score)).Pairwise (Precedes score) := by
  have hnodup : (matched.mergeSort (rankedBefore score)).Nodup := (List.mergeSort_perm _ _).nodup_iff.mpr h
  exact ((pairwise_rankedBefore matched).and hnodup).imp fun hab => (rankedBefore_iff.mp hab.1).resolve_left hab.2

/-- The same matches in another order are sorted alike. -/
theorem mergeSort_eq_of_perm {matched matched' : List String} (h : matched'.Perm matched) :
    matched'.mergeSort (rankedBefore score) = matched.mergeSort (rankedBefore score) := by
  have hperm : (matched'.mergeSort (rankedBefore score)).Perm (matched.mergeSort (rankedBefore score)) :=
    (List.mergeSort_perm _ _).trans (h.trans (List.mergeSort_perm _ _).symm)
  refine hperm.eq_of_pairwise ?_ (pairwise_rankedBefore matched') (pairwise_rankedBefore matched)
  intro a b _ _ hab hba
  rw [rankedBefore_iff] at hab hba
  rcases hab with rfl | hab
  · rfl
  · rcases hba with rfl | hba
    · rfl
    · exact absurd (hab.trans hba) (not_precedes_self a)

/-! ## Listed matches -/

/-- For every score that a matcher gives, where a missing one counts as 0, the list of the first matches has as many
entries as there are matches, up to the limit. They are matches, each one precedes the next and all matches that are not
listed, and the list neither depends on the order in which the matches are kept nor changes when the limit is raised,
except for what is added behind it. -/
theorem rankedBy_lists_first (matcher : String → String → Option Int) (s : Search) (hs : s.matched.Nodup) (limit : ℕ) :
    let score := fun id => (matcher id s.query).getD 0
    let top := s.rankedBy score limit
    top.length = min limit s.matched.length ∧ top.Nodup ∧ (∀ id ∈ top, s.isMatch id = true) ∧
      top.Pairwise (Precedes score) ∧
      (∀ id ∈ top, ∀ other ∉ top, s.isMatch other = true → Precedes score id other) ∧
      (∀ order, order.Perm s.matched → ({ s with matched := order } : Search).rankedBy score limit = top) ∧
      ∀ higher, limit ≤ higher → top <+: s.rankedBy score higher := by
  intro score top
  have hperm := List.mergeSort_perm s.matched (rankedBefore score)
  have hsorted : (s.matched.mergeSort (rankedBefore score)).Pairwise (Precedes score) := mergeSort_precedes hs
  have hparts : top ++ (s.matched.mergeSort (rankedBefore score)).drop limit =
      s.matched.mergeSort (rankedBefore score) := List.take_append_drop _ _
  refine ⟨?_, ?_, fun id hid => ?_, ?_, fun id hid other hother hmatch => ?_, fun order horder => ?_,
    fun higher hle => ?_⟩
  · exact List.length_take.trans (by rw [hperm.length_eq])
  · exact (hperm.nodup_iff.mpr hs).sublist (List.take_sublist _ _)
  · exact List.contains_iff_mem.mpr (hperm.mem_iff.mp (List.mem_of_mem_take hid))
  · exact hsorted.sublist (List.take_sublist _ _)
  · have hrest : other ∈ (s.matched.mergeSort (rankedBefore score)).drop limit := by
      have hsomewhere := hperm.mem_iff.mpr (List.contains_iff_mem.mp hmatch)
      rw [← hparts, List.mem_append] at hsomewhere
      exact hsomewhere.resolve_left hother
    rw [← hparts, List.pairwise_append] at hsorted
    exact hsorted.2.2 id hid other hrest
  · exact congrArg (List.take limit) (mergeSort_eq_of_perm horder)
  · exact List.take_prefix_take_left hle

/-- The best match is listed first and three others, which fit equally well, by id, in whatever order they are kept. -/
theorem equal_scores_listed_by_id :
    let s : Search := ⟨"a", ["a", "xxa", "xxba", "xxca"]⟩
    s.matched.Nodup ∧ ∀ order, order.Perm s.matched →
      ({ s with matched := order } : Search).ranked 3 = ["a", "xxa", "xxba"] := by
  intro s
  have hs : s.matched.Nodup := by decide
  have hsorted : s.matched.mergeSort (rankedBefore s.fit) = s.matched := List.mergeSort_of_pairwise (by decide +kernel)
  obtain ⟨-, -, -, -, -, hany, -⟩ :=
    rankedBy_lists_first (fun id query => Fuzzy.score? id.toList query.toList) s hs 3
  refine ⟨hs, fun order horder => (hany order horder).trans ?_⟩
  change (s.matched.mergeSort (rankedBefore s.fit)).take 3 = _
  rw [hsorted]
  rfl

end CallAtlas.Search
