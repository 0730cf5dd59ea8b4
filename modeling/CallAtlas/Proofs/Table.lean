import CallAtlas.Table
import Mathlib

/-! Tables: what is entered is found under its name, and the names stay in increasing order.

A table that is made of a list has the names of the list (`mem_names_ofList`) in increasing order
(`increasing_ofList`), and nothing but its entries (`mem_of_mem_ofList`). -/

namespace CallAtlas

set_option autoImplicit false

variable {τ : Type} {name : String} {value : τ} {table : Table τ}

/-- The names increase, so none of them stands there twice. -/
def Increasing (table : Table τ) : Prop := table.Pairwise fun a b => a.1 < b.1

namespace Table

/-! ## One entry -/

theorem increasing_enter (h : Increasing table) (name : String) (value : τ) : Increasing (table.enter name value) := by
  fun_induction enter name value table with
  | case1 => exact List.pairwise_singleton _ _
  | case2 first rest hlt =>
    refine List.pairwise_cons.mpr ⟨fun entry hentry => ?_, h⟩
    rcases List.mem_cons.mp hentry with rfl | hrest
    · exact hlt
    · exact hlt.trans (List.rel_of_pairwise_cons h hrest)
  | case3 first rest hlt heq =>
    refine List.pairwise_cons.mpr ⟨fun entry hentry => ?_, h.of_cons⟩
    exact heq.trans_lt (List.rel_of_pairwise_cons h hentry)
  | case4 first rest hlt hne ih =>
    refine List.pairwise_cons.mpr ⟨fun entry hentry => ?_, ih h.of_cons⟩
    rcases mem_of_mem_enter hentry with rfl | hrest
    · exact lt_of_le_of_ne (not_lt.mp hlt) (Ne.symm hne)
    · exact List.rel_of_pairwise_cons h hrest

/-- Of entered values the one of a name is found under it, and the others stay as they are. -/
theorem lookup_enter (key name : String) (value : τ) (table : Table τ) :
    (table.enter name value).lookup key = if name = key then some value else table.lookup key := by
  unfold lookup
  fun_induction enter name value table with
  | case1 => by_cases h : name = key <;> simp [h]
  | case2 first rest hlt => by_cases h : name = key <;> simp [h]
  | case3 first rest hlt heq => by_cases h : name = key <;> simp [← heq, h]
  | case4 first rest hlt hne ih =>
    by_cases h : first.1 = key
    · have hname : name ≠ key := fun hname => hne (hname.trans h.symm)
      simp [h, hname]
    · simp only [List.find?_cons, h, decide_false]
      exact ih

theorem isSome_lookup : (table.lookup name).isSome ↔ name ∈ table.names := by
  simp [lookup, names, List.find?_isSome]

theorem mem_names_enter {other : String} :
    other ∈ (table.enter name value).names ↔ other = name ∨ other ∈ table.names := by
  rw [← isSome_lookup, ← isSome_lookup, lookup_enter]
  split
  · next heq => simp [heq]
  · next hne => simp [Ne.symm hne]

/-- In a table the only entry of a name is the one that is found. -/
theorem find?_eq_some (h : Increasing table) (hmem : (name, value) ∈ table) :
    table.find? (·.1 = name) = some (name, value) := by
  induction table with
  | nil => cases hmem
  | cons first rest ih =>
    rcases List.mem_cons.mp hmem with rfl | hrest
    · exact List.find?_cons_of_pos (by simp)
    · have hlt : first.1 < name := List.rel_of_pairwise_cons h hrest
      rw [List.find?_cons_of_neg (by simpa using hlt.ne)]
      exact ih h.of_cons hrest

/-! ## Tables of lists -/

theorem ofList_append_singleton (entries : List (String × τ)) (entry : String × τ) :
    ofList (entries ++ [entry]) = (ofList entries).enter entry.1 entry.2 := by
  rw [ofList, List.foldl_append]
  rfl

theorem increasing_ofList (entries : List (String × τ)) : Increasing (ofList entries) := by
  induction entries using List.reverseRecOn with
  | nil => exact List.Pairwise.nil
  | append_singleton entries entry ih =>
    rw [ofList_append_singleton]
    exact increasing_enter ih entry.1 entry.2

theorem mem_of_mem_ofList {entries : List (String × τ)} {entry : String × τ} (h : entry ∈ ofList entries) :
    entry ∈ entries := by
  induction entries using List.reverseRecOn with
  | nil => exact h
  | append_singleton entries last ih =>
    rw [ofList_append_singleton] at h
    rw [List.mem_append, List.mem_singleton]
    exact (mem_of_mem_enter h).symm.imp_left ih

theorem mem_names_ofList {entries : List (String × τ)} : name ∈ (ofList entries).names ↔ name ∈ entries.map (·.1) := by
  induction entries using List.reverseRecOn with
  | nil => rfl
  | append_singleton entries last ih =>
    rw [ofList_append_singleton, mem_names_enter, ih, List.map_append, List.mem_append, List.map_singleton,
      List.mem_singleton, or_comm]

end Table

end CallAtlas
