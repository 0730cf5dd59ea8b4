/-!
Values by name.

A table lists its entries in increasing order of their names, and `enter` keeps it that way. `lookup` takes the first
entry of a name, so it also reads lists whose names are in any order.
-/

namespace CallAtlas

set_option autoImplicit false

abbrev Table (τ : Type) : Type := List (String × τ)

namespace Table

variable {τ : Type}

/-- Enters a value under its name in the place of the name; the value of a name that is there is replaced. -/
def enter (name : String) (value : τ) : Table τ → Table τ
  | [] => [(name, value)]
  | entry :: rest =>
    if name < entry.1 then (name, value) :: entry :: rest
    else if name = entry.1 then (name, value) :: rest
    else entry :: enter name value rest

/-- The table of some entries, of each name the last one. -/
def ofList (entries : List (String × τ)) : Table τ :=
  entries.foldl (fun table entry => table.enter entry.1 entry.2) []

/-- The first value of a name. -/
def lookup (name : String) (table : Table τ) : Option τ := (table.find? (·.1 = name)).map (·.2)

def names (table : Table τ) : List String := table.map (·.1)

theorem mem_of_mem_enter {name : String} {value : τ} {table : Table τ} {entry : String × τ}
    (h : entry ∈ table.enter name value) : entry = (name, value) ∨ entry ∈ table := by
  induction table with
  | nil => exact .inl (List.mem_singleton.mp h)
  | cons first rest ih =>
    rw [enter] at h
    split at h
    · exact List.mem_cons.mp h
    split at h
    · exact (List.mem_cons.mp h).imp_right (List.mem_cons_of_mem first)
    · rcases List.mem_cons.mp h with rfl | hrest
      · exact .inr List.mem_cons_self
      · exact (ih hrest).imp_right (List.mem_cons_of_mem first)

end Table

end CallAtlas
