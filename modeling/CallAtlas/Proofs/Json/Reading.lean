import CallAtlas.Json.Reader

/-!
What the readers give for texts without blanks and escapes.

A reader gives back a proof with its result. `Gives` leaves it out, so that the lemmas compose along the text: one
for each way in which a value, the items of an array or the members of an object go on.
-/

namespace CallAtlas.Json

set_option autoImplicit false

variable {τ : Type} {s rest : List Char} {depth : Nat}

def Gives (result : Except ReadError (Taken τ s)) (value : τ) (rest : List Char) : Prop :=
  ∃ shorter, result = .ok ⟨value, rest, shorter⟩

theorem next?_cons {c : Char} (h : isBlank c = false) : next? (c :: rest) = some ⟨c, rest, Nat.lt_succ_self _⟩ := by
  have htrim : trim (c :: rest) = c :: rest := List.dropWhile_cons_of_neg (by simp [h])
  unfold next?
  generalize length_trim_le (c :: rest) = hle
  revert hle
  rw [htrim]
  intro hle
  rfl

/-! ## Names -/

/-- A character that stands for itself in a string. -/
def IsPlain (c : Char) : Prop := c ≠ '"' ∧ c ≠ '\\' ∧ 0x20 ≤ c.toNat

theorem readStringFrom_cons {c : Char} (hplain : IsPlain c) (taken s : List Char) :
    readStringFrom taken (c :: s) = (readStringFrom (c :: taken) s).map (·.grow (Nat.le_succ _)) := by
  obtain ⟨hquote, hslash, hcontrol⟩ := hplain
  rw [readStringFrom, if_neg (by omega)]
  all_goals simp [hquote, hslash]

theorem readStringFrom_plain (taken name rest : List Char) (hplain : ∀ c ∈ name, IsPlain c) :
    Gives (readStringFrom taken (name ++ '"' :: rest)) (String.ofList (taken.reverse ++ name)) rest := by
  induction name generalizing taken with
  | nil => exact ⟨by simp, by simp [readStringFrom]⟩
  | cons c name ih =>
    obtain ⟨shorter, hname⟩ := ih (c :: taken) fun d hd => hplain d (List.mem_cons_of_mem c hd)
    have hcons := readStringFrom_cons (hplain c List.mem_cons_self) taken (name ++ '"' :: rest)
    refine ⟨Nat.lt_succ_of_lt shorter, hcons.trans ?_⟩
    simp [hname, Except.map, Taken.grow]

theorem readName_plain (name rest : List Char) (hplain : ∀ c ∈ name, IsPlain c) :
    Gives (readName ('"' :: (name ++ '"' :: ':' :: rest))) (String.ofList name) rest := by
  obtain ⟨shorter, hstring⟩ := readStringFrom_plain [] name (':' :: rest) hplain
  refine ⟨by simp; omega, ?_⟩
  simp [readName, readKey, readColon, next?_cons, isBlank, readString, hstring, Except.map,
    bind, Except.bind, Taken.append, Taken.map]

/-! ## Values -/

theorem readValue_string (text rest : List Char) (hplain : ∀ c ∈ text, IsPlain c) :
    Gives (readValue depth ('"' :: (text ++ '"' :: rest))) (.string (String.ofList text)) rest := by
  obtain ⟨shorter, hstring⟩ := readStringFrom_plain [] text rest hplain
  refine ⟨by simp; omega, ?_⟩
  rw [readValue]
  simp [next?_cons, isBlank, readString, hstring, Except.map, Taken.append, Taken.map]

theorem readValue_array {value : Json} (h : Gives (readArray depth s) value rest) :
    Gives (readValue (depth + 1) ('[' :: s)) value rest := by
  obtain ⟨shorter, harray⟩ := h
  refine ⟨Nat.lt_succ_of_lt shorter, ?_⟩
  rw [readValue]
  simp [next?_cons, isBlank, harray, Except.map, Taken.append]

theorem readValue_object {value : Json} (h : Gives (readObject depth s) value rest) :
    Gives (readValue (depth + 1) ('\x7b' :: s)) value rest := by
  obtain ⟨shorter, hobject⟩ := h
  refine ⟨Nat.lt_succ_of_lt shorter, ?_⟩
  rw [readValue]
  simp [next?_cons, isBlank, hobject, Except.map, Taken.append]

/-! ## Items -/

theorem readArray_nil : Gives (readArray depth (']' :: rest)) (.array []) rest := by
  refine ⟨Nat.lt_succ_self _, ?_⟩
  rw [readArray]
  simp [next?_cons, isBlank, Taken.map]

theorem readArray_cons {c : Char} {items : List Json} (hblank : isBlank c = false) (hend : c ≠ ']')
    (h : Gives (readItems depth (c :: s)) items rest) : Gives (readArray depth (c :: s)) (.array items) rest := by
  obtain ⟨shorter, hitems⟩ := h
  refine ⟨shorter, ?_⟩
  rw [readArray]
  simp [next?_cons, hblank, hend, hitems, Except.map, Taken.map]

theorem readItems_last {item : Json} (h : Gives (readValue depth s) item (']' :: rest)) :
    Gives (readItems depth s) [item] rest := by
  obtain ⟨shorter, hitem⟩ := h
  refine ⟨Nat.lt_of_succ_lt shorter, ?_⟩
  rw [readItems]
  simp [hitem, bind, Except.bind, next?_cons, isBlank, Taken.append, Taken.map]

/-! ## Members -/

theorem readObject_nil : Gives (readObject depth ('\x7d' :: rest)) (.object []) rest := by
  refine ⟨Nat.lt_succ_self _, ?_⟩
  rw [readObject]
  simp [next?_cons, isBlank, Taken.map]

theorem readObject_cons {members : List (String × Json)} (h : Gives (readMembers depth ('"' :: s)) members rest) :
    Gives (readObject depth ('"' :: s)) (.object members) rest := by
  obtain ⟨shorter, hmembers⟩ := h
  refine ⟨shorter, ?_⟩
  rw [readObject]
  simp [next?_cons, isBlank, hmembers, Except.map, Taken.map]

theorem readMembers_last (name : List Char) {value : Json} (hplain : ∀ c ∈ name, IsPlain c)
    (h : Gives (readValue depth s) value ('\x7d' :: rest)) :
    Gives (readMembers depth ('"' :: (name ++ '"' :: ':' :: s))) [(String.ofList name, value)] rest := by
  obtain ⟨_, hname⟩ := readName_plain name s hplain
  obtain ⟨shorter, hvalue⟩ := h
  refine ⟨by simp at shorter ⊢; omega, ?_⟩
  rw [readMembers]
  simp [hname, hvalue, bind, Except.bind, next?_cons, isBlank, Taken.append, Taken.map]

theorem readMembers_cons (name : List Char) {value : Json} {more : List Char} {members : List (String × Json)}
    (hplain : ∀ c ∈ name, IsPlain c) (h : Gives (readValue depth s) value (',' :: more))
    (hmore : Gives (readMembers depth more) members rest) :
    Gives (readMembers depth ('"' :: (name ++ '"' :: ':' :: s))) ((String.ofList name, value) :: members) rest := by
  obtain ⟨_, hname⟩ := readName_plain name s hplain
  obtain ⟨shorter, hvalue⟩ := h
  obtain ⟨shorterMore, hmembers⟩ := hmore
  refine ⟨by simp at shorter ⊢; omega, ?_⟩
  rw [readMembers]
  simp [hname, hvalue, hmembers, bind, Except.bind, next?_cons, isBlank, Taken.append, Taken.map]

end CallAtlas.Json
