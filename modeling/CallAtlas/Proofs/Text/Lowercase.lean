import Mathlib
import CallAtlas.Text.Characters

/-! Lower case of a text against lower case of its parts.

A part of a text has the same small letters in the text as alone, except for its capital sigmas: what stands around the
part can put them at the end of a word or take them away from it. `lowercaseWithin` is the lower case of a part in its
place. It is that of the part alone in every place if and only if the part settles its sigmas itself (`SigmasSettled`),
and a part that does not is no longer found in lower case when the right letter is added to it. -/

namespace CallAtlas.Text

set_option autoImplicit false

/-! ## Parts of a text -/

/-- Whether a capital sigma between two texts ends a word; the text in front of it is given in reverse order. -/
def endsWord (before after : List Char) : Bool := startsCased before && !startsCased after

def lowercaseAt (before after : List Char) (c : Char) : List Char :=
  if c = 'Σ' then [if endsWord before after then 'ς' else 'σ'] else lowercaseChar c

/-- Lower case of a part of a text, between what stands in front of it, in reverse order, and what stands behind it. -/
def lowercaseWithin (before after : List Char) : List Char → List Char
  | [] => []
  | c :: rest => lowercaseAt before (rest ++ after) c ++ lowercaseWithin (c :: before) after rest

theorem lowercaseFrom_append (before part rest : List Char) :
    lowercaseFrom before (part ++ rest) =
      lowercaseWithin before rest part ++ lowercaseFrom (part.reverse ++ before) rest := by
  induction part generalizing before with
  | nil => rfl
  | cons c part ih =>
    rw [List.cons_append, List.reverse_cons, List.append_assoc, List.singleton_append]
    change lowercaseAt before (part ++ rest) c ++ lowercaseFrom (c :: before) (part ++ rest) = _
    rw [ih, ← List.append_assoc]
    rfl

theorem lowercaseFrom_eq (before text : List Char) : lowercaseFrom before text = lowercaseWithin before [] text := by
  have h := lowercaseFrom_append before text []
  rwa [List.append_nil, lowercaseFrom, List.append_nil] at h

theorem lowercaseWithin_contained (left part right : List Char) :
    lowercaseWithin left.reverse right part <:+: lowercaseFrom [] (left ++ part ++ right) := by
  rw [List.append_assoc, lowercaseFrom_append, lowercaseFrom_append, List.append_nil, ← List.append_assoc]
  exact ⟨_, _, rfl⟩

theorem length_lowercaseAt (before after before' after' : List Char) (c : Char) :
    (lowercaseAt before after c).length = (lowercaseAt before' after' c).length := by
  unfold lowercaseAt
  split <;> rfl

theorem lowercaseAt_sigma_eq_iff (before after before' after' : List Char) :
    lowercaseAt before after 'Σ' = lowercaseAt before' after' 'Σ' ↔
      endsWord before after = endsWord before' after' := by
  unfold lowercaseAt
  cases endsWord before after <;> cases endsWord before' after' <;> decide

theorem length_lowercaseWithin (before after before' after' part : List Char) :
    (lowercaseWithin before after part).length = (lowercaseWithin before' after' part).length := by
  induction part generalizing before before' with
  | nil => rfl
  | cons c part ih =>
    rw [lowercaseWithin, lowercaseWithin, List.length_append, List.length_append, ih (c :: before) (c :: before'),
      length_lowercaseAt]

/-- What holds of every capital sigma of a text, by what stands in front of it and behind it. -/
theorem forall_sigma_cons {c : Char} {rest : List Char} {P : List Char → List Char → Prop} :
    (∀ u v, c :: rest = u ++ 'Σ' :: v → P u v) ↔
      (c = 'Σ' → P [] rest) ∧ ∀ u v, rest = u ++ 'Σ' :: v → P (c :: u) v := by
  constructor
  · intro h
    exact ⟨fun hc => h [] rest (by rw [hc]; rfl), fun u v huv => h (c :: u) v (by rw [huv]; rfl)⟩
  · rintro ⟨hfirst, hrest⟩ u v huv
    cases u with
    | nil =>
      obtain ⟨rfl, rfl⟩ := List.cons.inj huv
      exact hfirst rfl
    | cons d u =>
      obtain ⟨rfl, hrest_eq⟩ := List.cons.inj huv
      exact hrest u v hrest_eq

/-- A part is written alike in two places if and only if each of its sigmas ends a word in both or in none. -/
theorem lowercaseWithin_eq_iff (before after before' after' part : List Char) :
    lowercaseWithin before after part = lowercaseWithin before' after' part ↔
      ∀ u v, part = u ++ 'Σ' :: v →
        endsWord (u.reverse ++ before) (v ++ after) = endsWord (u.reverse ++ before') (v ++ after') := by
  induction part generalizing before before' with
  | nil =>
    refine iff_of_true rfl fun u v huv => ?_
    exact absurd huv (by simp)
  | cons c part ih =>
    have hsplit : lowercaseWithin before after (c :: part) = lowercaseWithin before' after' (c :: part) ↔
        lowercaseAt before (part ++ after) c = lowercaseAt before' (part ++ after') c ∧
          lowercaseWithin (c :: before) after part = lowercaseWithin (c :: before') after' part := by
      constructor
      · exact fun h => List.append_inj h (length_lowercaseAt ..)
      · rintro ⟨hfirst, hrest⟩
        rw [lowercaseWithin, lowercaseWithin, hfirst, hrest]
    rw [hsplit, ih, forall_sigma_cons]
    simp only [List.reverse_cons, List.append_assoc, List.singleton_append, List.reverse_nil, List.nil_append]
    refine and_congr_left fun _ => ?_
    by_cases hc : c = 'Σ'
    · subst hc
      simp only [lowercaseAt_sigma_eq_iff, forall_const]
    · simp only [lowercaseAt, hc, if_false, false_implies]

/-! ## Deciding characters -/

theorem inRanges_eq (ranges : Array (ℕ × ℕ)) (n : ℕ) :
    inRanges ranges n = ranges.toList.any fun range => range.1 ≤ n && n ≤ range.2 := by
  rw [inRanges, Array.any_toList]

theorem isCased_eq (c : Char) :
    isCased c = casedRanges.toList.any fun range => range.1 ≤ c.toNat && c.toNat ≤ range.2 :=
  inRanges_eq _ _

theorem isCaseIgnorable_eq (c : Char) :
    isCaseIgnorable c = caseIgnorableRanges.toList.any fun range => range.1 ≤ c.toNat && c.toNat ≤ range.2 :=
  inRanges_eq _ _

/-- The character that decides about a capital sigma in front of a text: the first one that is not case-ignorable. -/
def decider? (cs : List Char) : Option Char := (cs.dropWhile isCaseIgnorable).head?

theorem decider?_cons {c : Char} (hc : isCaseIgnorable c = false) (rest : List Char) :
    decider? (c :: rest) = some c := by
  rw [decider?, List.dropWhile_cons_of_neg (by simp [hc]), List.head?_cons]

theorem startsCased_eq (cs : List Char) : startsCased cs = ((decider? cs).map isCased).getD false := rfl

theorem startsCased_nil : startsCased [] = false := rfl

theorem decider?_append (cs more : List Char) : decider? (cs ++ more) = (decider? cs).or (decider? more) := by
  unfold decider?
  rw [List.dropWhile_append]
  split
  · next h => rw [List.isEmpty_iff.mp h]; rfl
  · next h =>
    obtain ⟨c, rest, hc⟩ := List.exists_cons_of_ne_nil (fun hnil => h (List.isEmpty_iff.mpr hnil))
    rw [hc]
    rfl

theorem startsCased_append {cs : List Char} (h : decider? cs ≠ none) (more : List Char) :
    startsCased (cs ++ more) = startsCased cs := by
  obtain ⟨c, hc⟩ := Option.ne_none_iff_exists'.mp h
  rw [startsCased_eq, startsCased_eq, decider?_append, hc, Option.some_or]

theorem startsCased_append_of_none {cs : List Char} (h : decider? cs = none) (more : List Char) :
    startsCased (cs ++ more) = startsCased more := by
  rw [startsCased_eq, startsCased_eq, decider?_append, h, Option.none_or]

theorem startsCased_of_none {cs : List Char} (h : decider? cs = none) : startsCased cs = false := by
  rw [startsCased_eq, h, Option.map_none, Option.getD_none]

theorem startsCased_of_some {cs : List Char} {c : Char} (h : decider? cs = some c) : startsCased cs = isCased c := by
  rw [startsCased_eq, h, Option.map_some, Option.getD_some]

theorem startsCased_cons {c : Char} (hc : isCaseIgnorable c = false) (rest : List Char) :
    startsCased (c :: rest) = isCased c :=
  startsCased_of_some (decider?_cons hc rest)

theorem decided_of_startsCased {cs : List Char} (h : startsCased cs = true) : decider? cs ≠ none := fun hnone =>
  Bool.false_ne_true ((startsCased_of_none hnone).symm.trans h)

/-! ## Settled sigmas -/

/-- Whether the letters around a capital sigma settle its small letter, whatever is added at both ends: a letter without
case decides in front, a cased one behind, or a cased one in front and some letter behind. -/
def SigmaSettled (before after : List Char) : Prop :=
  (∃ c, decider? before = some c ∧ isCased c = false) ∨ startsCased after = true ∨
    startsCased before = true ∧ decider? after ≠ none

def SigmasSettled (text : List Char) : Prop :=
  ∀ u v, text = u ++ 'Σ' :: v → SigmaSettled u.reverse v

theorem SigmaSettled.endsWord_append {before after : List Char} (h : SigmaSettled before after)
    (before' after' : List Char) : endsWord (before ++ before') (after ++ after') = endsWord before after := by
  unfold endsWord
  rcases h with ⟨c, hc, hcased⟩ | hafter | ⟨hbefore, hdecided⟩
  · have hdecided : decider? before ≠ none := hc ▸ Option.some_ne_none c
    rw [startsCased_append hdecided, startsCased_of_some hc, hcased, Bool.false_and, Bool.false_and]
  · rw [startsCased_append (decided_of_startsCased hafter), hafter, Bool.not_true, Bool.and_false, Bool.and_false]
  · rw [startsCased_append (decided_of_startsCased hbefore), startsCased_append hdecided]

/-- A sigma that is not settled changes with any cased letter in front of the text or with any behind it. -/
theorem endsWord_of_not_settled {before after : List Char} (h : ¬ SigmaSettled before after) :
    (∀ c, decider? [c] = some c → isCased c = true → endsWord before after ≠ endsWord (before ++ [c]) after) ∨
      ∀ c, decider? [c] = some c → isCased c = true → endsWord before after ≠ endsWord before (after ++ [c]) := by
  simp only [SigmaSettled, not_or, not_exists, not_and, Bool.not_eq_true, Bool.not_eq_false, ne_eq, not_not] at h
  obtain ⟨hcased, hafter, hnone⟩ := h
  unfold endsWord
  cases hb : decider? before with
  | none =>
    refine Or.inl fun c hc hccased => ?_
    rw [startsCased_of_none hb, startsCased_append_of_none hb, startsCased_of_some hc, hccased, hafter]
    decide
  | some b =>
    have hbefore : startsCased before = true := (startsCased_of_some hb).trans (hcased b hb)
    refine Or.inr fun c hc hccased => ?_
    rw [hbefore, hafter, startsCased_append_of_none (hnone hbefore), startsCased_of_some hc, hccased]
    decide

/-- One of two letters that stay as they are is not a given character. -/
theorem exists_plain_letter (c? : Option Char) : ∃ x, c? ≠ some x ∧ decider? [x] = some x ∧ isCased x = true ∧
    ∀ before after, lowercaseAt before after x = [x] := by
  have ha : isCaseIgnorable 'a' = false ∧ isCased 'a' = true := by
    rw [isCaseIgnorable_eq, isCased_eq]
    decide +kernel
  have hb : isCaseIgnorable 'b' = false ∧ isCased 'b' = true := by
    rw [isCaseIgnorable_eq, isCased_eq]
    decide +kernel
  by_cases h : c? = some 'a'
  · exact ⟨'b', by simp [h], decider?_cons hb.1 [], hb.2, fun _ _ => rfl⟩
  · exact ⟨'a', h, decider?_cons ha.1 [], ha.2, fun _ _ => rfl⟩

theorem not_infix_cons {l m : List Char} {x : Char} (hlength : l.length = m.length) (hne : l ≠ m)
    (hx : l.head? ≠ some x) : ¬ l <:+: x :: m := by
  rw [List.infix_cons_iff]
  rintro (hfirst | hrest)
  · cases l with
    | nil => exact hne (List.length_eq_zero_iff.mp hlength.symm).symm
    | cons c rest =>
      obtain ⟨rfl, -⟩ := List.cons_prefix_cons.mp hfirst
      exact hx rfl
  · exact hne (hrest.eq_of_length hlength)

theorem not_infix_concat {l m : List Char} {x : Char} (hlength : l.length = m.length) (hne : l ≠ m)
    (hx : l.getLast? ≠ some x) : ¬ l <:+: m ++ [x] := by
  rw [← List.reverse_infix, List.reverse_append, List.reverse_singleton, List.singleton_append]
  refine not_infix_cons (by simpa using hlength) (fun h => hne (List.reverse_injective h)) ?_
  rwa [List.head?_reverse]

/-! ## Texts within texts -/

theorem lowercase_infix_of_settled {part text : String} (h : SigmasSettled part.toList)
    (hpart : part.toList <:+: text.toList) : lowercase part <:+: lowercase text := by
  obtain ⟨left, right, htext⟩ := hpart
  have hsame : lowercaseWithin left.reverse right part.toList = lowercaseWithin [] [] part.toList := by
    rw [lowercaseWithin_eq_iff]
    intro u v huv
    rw [List.append_nil, List.append_nil]
    exact (h u v huv).endsWord_append left.reverse right
  rw [lowercase, lowercase, lowercaseFrom_eq [] part.toList, ← hsame, ← htext]
  exact lowercaseWithin_contained left part.toList right

/-- If a text does not settle its sigmas, some longer text does not contain it in lower case. -/
theorem exists_not_infix_of_not_settled {part : String} (h : ¬ SigmasSettled part.toList) :
    ∃ text : String, part.toList <:+: text.toList ∧ ¬ lowercase part <:+: lowercase text := by
  simp only [SigmasSettled, not_forall] at h
  obtain ⟨u, v, huv, hunsettled⟩ := h
  rw [lowercase, lowercaseFrom_eq]
  -- The letter goes to the end where it changes the sigma, and differs from the letter that stands there.
  rcases endsWord_of_not_settled hunsettled with hfront | hback
  · obtain ⟨x, hx, hdecider, hcased, hplain⟩ := exists_plain_letter (lowercaseWithin [] [] part.toList).head?
    refine ⟨String.ofList ([x] ++ part.toList), ?_, ?_⟩
    · rw [String.toList_ofList]
      exact (List.suffix_append _ _).isInfix
    rw [lowercase, String.toList_ofList, lowercaseFrom_append, lowercaseFrom_eq, lowercaseWithin, lowercaseWithin,
      hplain]
    refine not_infix_cons (length_lowercaseWithin ..) (fun hsame => hfront x hdecider hcased ?_) hx
    simpa using (lowercaseWithin_eq_iff ..).mp hsame u v huv
  · obtain ⟨x, hx, hdecider, hcased, hplain⟩ := exists_plain_letter (lowercaseWithin [] [] part.toList).getLast?
    refine ⟨String.ofList (part.toList ++ [x]), ?_, ?_⟩
    · rw [String.toList_ofList]
      exact (List.prefix_append _ _).isInfix
    rw [lowercase, String.toList_ofList, lowercaseFrom_append, lowercaseFrom_eq, lowercaseWithin, lowercaseWithin,
      hplain]
    refine not_infix_concat (length_lowercaseWithin ..) (fun hsame => hback x hdecider hcased ?_) hx
    simpa using (lowercaseWithin_eq_iff ..).mp hsame u v huv

end CallAtlas.Text
