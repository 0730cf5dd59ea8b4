import Mathlib

/-! The order of texts is the order of their bytes.

Texts are compared by the code points of their characters. The bytes of a character with a larger code point are larger
too, at the first place where the two differ, so comparing the bytes gives the same order. -/

namespace CallAtlas.Text

set_option autoImplicit false

def bytes (s : String) : List UInt8 := s.toByteArray.data.toList

theorem bytes_eq_flatMap (s : String) : bytes s = s.toList.flatMap String.utf8EncodeChar := by
  rw [bytes, ← String.utf8Encode_toList, List.utf8Encode, List.toList_data_toByteArray]

/-! ## Characters -/

theorem ofNat_lt_ofNat {m n : ℕ} (hlt : m < n) (hn : n < 256) : UInt8.ofNat m < UInt8.ofNat n := by
  rw [UInt8.lt_iff_toNat_lt, UInt8.toNat_ofNat_of_lt' (hlt.trans hn), UInt8.toNat_ofNat_of_lt' hn]
  exact hlt

theorem cons_lt_of_lt {m n : ℕ} (hlt : m < n) (hn : n < 256) (xs ys : List UInt8) :
    UInt8.ofNat m :: xs < UInt8.ofNat n :: ys :=
  List.cons_lt_cons_iff.mpr (Or.inl (ofNat_lt_ofNat hlt hn))

theorem cons_lt_of_le {m n : ℕ} {xs ys : List UInt8} (hle : m ≤ n) (hn : n < 256) (htail : m = n → xs < ys) :
    UInt8.ofNat m :: xs < UInt8.ofNat n :: ys := by
  rcases hle.lt_or_eq with hlt | heq
  · exact cons_lt_of_lt hlt hn xs ys
  · exact List.cons_lt_cons_iff.mpr (Or.inr ⟨congrArg UInt8.ofNat heq, htail heq⟩)

theorem encode_append_lt {c d : Char} (h : c < d) (xs ys : List UInt8) :
    String.utf8EncodeChar c ++ xs < String.utf8EncodeChar d ++ ys := by
  have hlt : c.val.toNat < d.val.toNat := h
  have hbound : d.val.toNat < 0x110000 := by
    rcases d.valid with hlow | ⟨-, hhigh⟩
    · exact hlow.trans (by decide)
    · exact hhigh
  unfold String.utf8EncodeChar
  dsimp only
  generalize c.val.toNat = v at *
  generalize d.val.toNat = w at *
  -- With more bytes the first one is larger. With as many, the first place where they differ decides.
  by_cases hv1 : v ≤ 127
  · rw [if_pos hv1]
    split
    · exact cons_lt_of_lt hlt (by omega) _ _
    split
    · exact cons_lt_of_lt (by omega) (by omega) _ _
    split
    · exact cons_lt_of_lt (by omega) (by omega) _ _
    · exact cons_lt_of_lt (by omega) (by omega) _ _
  rw [if_neg hv1, if_neg (by omega : ¬ w ≤ 127)]
  by_cases hv2 : v ≤ 2047
  · rw [if_pos hv2]
    split
    · refine cons_lt_of_le (by omega) (by omega) fun hfirst => ?_
      exact cons_lt_of_lt (by omega) (by omega) _ _
    split
    · exact cons_lt_of_lt (by omega) (by omega) _ _
    · exact cons_lt_of_lt (by omega) (by omega) _ _
  rw [if_neg hv2, if_neg (by omega : ¬ w ≤ 2047)]
  by_cases hv3 : v ≤ 65535
  · rw [if_pos hv3]
    split
    · refine cons_lt_of_le (by omega) (by omega) fun hfirst => ?_
      refine cons_lt_of_le (by omega) (by omega) fun hsecond => ?_
      exact cons_lt_of_lt (by omega) (by omega) _ _
    · exact cons_lt_of_lt (by omega) (by omega) _ _
  rw [if_neg hv3, if_neg (by omega : ¬ w ≤ 65535)]
  refine cons_lt_of_le (by omega) (by omega) fun hfirst => ?_
  refine cons_lt_of_le (by omega) (by omega) fun hsecond => ?_
  refine cons_lt_of_le (by omega) (by omega) fun hthird => ?_
  exact cons_lt_of_lt (by omega) (by omega) _ _

theorem encode_ne_nil (c : Char) : String.utf8EncodeChar c ≠ [] := by
  unfold String.utf8EncodeChar
  dsimp only
  split_ifs <;> exact List.cons_ne_nil _ _

/-! ## Texts -/

theorem flatMap_encode_lt {l m : List Char} (h : l < m) :
    l.flatMap String.utf8EncodeChar < m.flatMap String.utf8EncodeChar := by
  induction h with
  | nil =>
    obtain ⟨first, rest, hfirst⟩ := List.exists_cons_of_ne_nil (encode_ne_nil _)
    rw [List.flatMap_nil, List.flatMap_cons, hfirst]
    exact List.nil_lt_cons _ _
  | cons h ih =>
    rw [List.flatMap_cons, List.flatMap_cons]
    exact List.append_left_lt ih
  | rel h =>
    rw [List.flatMap_cons, List.flatMap_cons]
    exact encode_append_lt h _ _

theorem bytes_lt_bytes_iff {a b : String} : bytes a < bytes b ↔ a < b := by
  have hmono : ∀ {a b : String}, a < b → bytes a < bytes b := by
    intro a b h
    rw [bytes_eq_flatMap, bytes_eq_flatMap]
    exact flatMap_encode_lt h
  refine ⟨fun h => ?_, hmono⟩
  rcases lt_trichotomy a b with hlt | rfl | hgt
  · exact hlt
  · exact absurd h (List.lt_irrefl _)
  · exact absurd (hmono hgt) (List.lt_asymm h)

end CallAtlas.Text
