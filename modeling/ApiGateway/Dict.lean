/-! Dictionaries: entries in strictly increasing key order, so equal contents are equal lists. -/

namespace ApiGateway

/-- Entries sorted by key, one entry a key; keys compare by code point, which is also the order of
their UTF-8 bytes. -/
abbrev Dict (α : Type) := List (String × α)

namespace Dict

variable {α β : Type}

def insert (key : String) (value : α) : Dict α → Dict α
  | [] => [(key, value)]
  | (k, v) :: rest =>
    if key = k then (key, value) :: rest
    else if key < k then (key, value) :: (k, v) :: rest
    else (k, v) :: insert key value rest

def find? (key : String) : Dict α → Option α
  | [] => none
  | (k, v) :: rest => if k = key then some v else find? key rest

def contains (key : String) (dict : Dict α) : Bool := (dict.find? key).isSome

def keys (dict : Dict α) : List String := dict.map (·.1)

/-- A later entry of a repeated key wins. -/
def ofList (entries : List (String × α)) : Dict α :=
  entries.foldl (fun dict entry => dict.insert entry.1 entry.2) []

def Ordered (dict : Dict α) : Prop := List.Pairwise (fun a b => a.1 < b.1) dict

theorem find?_insert (key name : String) (value : α) (dict : Dict α) :
    find? name (insert key value dict) = if name = key then some value else find? name dict := by
  induction dict with
  | nil => simp only [insert, find?, eq_comm]
  | cons entry rest ih =>
    obtain ⟨k, v⟩ := entry
    by_cases hk : key = k
    · subst hk
      by_cases h : key = name
      · simp only [insert, find?, if_pos h, if_pos h.symm, if_true]
      · simp only [insert, find?, if_neg h, if_neg (Ne.symm h), if_true]
    by_cases hlt : key < k
    · simp only [insert, if_neg hk, if_pos hlt, find?, eq_comm]
    by_cases h : k = name
    · subst h
      simp only [insert, if_neg hk, if_neg hlt, find?, if_true, if_neg (Ne.symm hk)]
    · simp only [insert, if_neg hk, if_neg hlt, find?, if_neg h, ih]

theorem mem_insert {key : String} {value : α} {entry : String × α} {dict : Dict α}
    (h : entry ∈ insert key value dict) : entry = (key, value) ∨ entry ∈ dict := by
  induction dict with
  | nil => exact Or.inl (List.mem_singleton.mp h)
  | cons first rest ih =>
    simp only [insert] at h
    split at h
    · exact (List.mem_cons.mp h).imp_right (List.mem_cons_of_mem _)
    split at h
    · exact List.mem_cons.mp h
    · rcases List.mem_cons.mp h with h | h
      · exact Or.inr (h ▸ List.mem_cons_self)
      · exact (ih h).imp_right (List.mem_cons_of_mem _)

theorem Ordered.insert {dict : Dict α} (h : Ordered dict) (key : String) (value : α) :
    Ordered (dict.insert key value) := by
  induction dict with
  | nil => exact List.pairwise_singleton _ _
  | cons first rest ih =>
    obtain ⟨hfirst, hrest⟩ := List.pairwise_cons.mp h
    simp only [Dict.insert]
    split
    next hk => exact List.pairwise_cons.mpr ⟨fun e he => hk ▸ hfirst e he, hrest⟩
    split
    next _ hlt =>
      refine List.pairwise_cons.mpr ⟨fun e he => ?_, h⟩
      rcases List.mem_cons.mp he with rfl | he
      · exact hlt
      · exact String.lt_trans hlt (hfirst e he)
    next hk hlt =>
      refine List.pairwise_cons.mpr ⟨fun e he => ?_, ih hrest⟩
      rcases mem_insert he with rfl | he
      · exact Std.lt_of_le_of_ne (String.not_lt.mp hlt) (Ne.symm hk)
      · exact hfirst e he

theorem insert_of_forall_lt {key : String} {value : α} {dict : Dict α}
    (h : ∀ entry ∈ dict, entry.1 < key) :
    dict.insert key value = dict ++ [(key, value)] := by
  induction dict with
  | nil => rfl
  | cons first rest ih =>
    obtain ⟨hfirst, hrest⟩ := List.forall_mem_cons.mp h
    have hne : key ≠ first.1 := fun heq => String.lt_irrefl _ (heq ▸ hfirst)
    have hnlt : ¬ key < first.1 := fun hlt => String.lt_irrefl _ (String.lt_trans hlt hfirst)
    simp only [insert, if_neg hne, if_neg hnlt, ih hrest, List.cons_append]

theorem ofList_of_ordered {entries : Dict α} (h : Ordered entries) : ofList entries = entries := by
  have key : ∀ (rest dict : Dict α), Ordered (dict ++ rest) →
      rest.foldl (fun dict entry => dict.insert entry.1 entry.2) dict = dict ++ rest := by
    intro rest
    induction rest with
    | nil => exact fun dict _ => (List.append_nil dict).symm
    | cons entry rest ih =>
      intro dict hordered
      have hlast : ∀ e ∈ dict, e.1 < entry.1 := fun e he =>
        (List.pairwise_append.mp hordered).2.2 e he entry List.mem_cons_self
      rw [List.foldl_cons, insert_of_forall_lt hlast, ih _ (by simpa using hordered)]
      simp
  exact key entries [] h

theorem ordered_ofList (entries : List (String × α)) : Ordered (ofList entries) :=
  List.foldlRecOn entries _ List.Pairwise.nil fun _ h entry _ => h.insert entry.1 entry.2

theorem mem_of_mem_ofList {entries : List (String × α)} {entry : String × α}
    (h : entry ∈ ofList entries) : entry ∈ entries := by
  refine List.foldlRecOn (motive := fun dict => ∀ e ∈ dict, e ∈ entries) entries _
    (List.forall_mem_nil _) (fun dict hdict e he other hother => ?_) entry h
  rcases mem_insert hother with rfl | hmem
  · exact he
  · exact hdict other hmem

theorem mem_keys_insert {key name : String} {value : α} {dict : Dict α} :
    name ∈ (dict.insert key value).keys ↔ name = key ∨ name ∈ dict.keys := by
  induction dict with
  | nil => simp [insert, keys]
  | cons first rest ih =>
    simp only [keys] at ih
    simp only [insert, keys]
    split
    next h => simp [h]
    next =>
      split
      · simp
      · simp only [List.map_cons, List.mem_cons, ih, or_left_comm]

theorem contains_iff {name : String} {dict : Dict α} :
    dict.contains name = true ↔ name ∈ dict.keys := by
  induction dict with
  | nil => simp [contains, find?, keys]
  | cons first rest ih =>
    simp only [contains, keys] at ih
    simp only [contains, find?, keys, List.map_cons, List.mem_cons, ← ih]
    split
    next h => simp [h]
    next h => simp [Ne.symm h]

theorem mem_keys_ofList {entries : List (String × α)} {name : String}
    (h : name ∈ entries.map (·.1)) : name ∈ (ofList entries).keys := by
  have key : ∀ (rest : List (String × α)) (dict : Dict α),
      name ∈ dict.keys ∨ name ∈ rest.map (·.1) →
        name ∈ (rest.foldl (fun dict entry => dict.insert entry.1 entry.2) dict).keys := by
    intro rest
    induction rest with
    | nil => exact fun dict h => h.resolve_right List.not_mem_nil
    | cons entry rest ih =>
      intro dict h
      refine ih _ ?_
      rw [List.map_cons, List.mem_cons] at h
      rw [mem_keys_insert]
      rcases h with h | rfl | h
      · exact .inl (.inr h)
      · exact .inl (.inl rfl)
      · exact .inr h
  exact key entries [] (.inr h)

end Dict
end ApiGateway
