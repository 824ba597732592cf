import ApiGateway.Json.Printer
import ApiGateway.Proofs.Json.Scalar

/-! The text of a value reads as the document that spells it. -/

namespace ApiGateway.Json

mutual

/-- The document that spells a value at a depth, member by member; what lies too deep is not in
it. -/
def toDocument (depth : Nat) : Json → Document
  | .null => .null
  | .bool b => .bool b
  | .num n => .num n
  | .str s => .str s
  | .arr items =>
    if depth + 1 ≤ maxDepth then .list (itemDocuments (depth + 1) items) none
    else .broken .listTooDeep none
  | .obj members =>
    if depth + 1 ≤ maxDepth then .table (memberDocuments (depth + 1) members) none
    else .broken .tableTooDeep none

def itemDocuments (depth : Nat) : List Json → List Document
  | [] => []
  | v :: vs => toDocument depth v :: itemDocuments depth vs

def memberDocuments (depth : Nat) : List (String × Json) → List (Except Stop String × Document)
  | [] => []
  | (k, v) :: ms => (.ok k, toDocument depth v) :: memberDocuments depth ms

end

theorem itemDocuments_eq_map (depth : Nat) (vs : List Json) :
    itemDocuments depth vs = vs.map (toDocument depth) := by
  induction vs with
  | nil => rfl
  | cons v vs ih => rw [itemDocuments, ih, List.map_cons]

mutual

def height : Json → Nat
  | .arr items => itemsHeight items + 1
  | .obj members => membersHeight members + 1
  | _ => 0

def itemsHeight : List Json → Nat
  | [] => 0
  | v :: vs => max (height v) (itemsHeight vs)

def membersHeight : List (String × Json) → Nat
  | [] => 0
  | (_, v) :: ms => max (height v) (membersHeight ms)

end

mutual

def Everywhere (p : Json → Prop) : Json → Prop
  | .arr items => p (.arr items) ∧ ItemsEverywhere p items
  | .obj members => p (.obj members) ∧ MembersEverywhere p members
  | v => p v

def ItemsEverywhere (p : Json → Prop) : List Json → Prop
  | [] => True
  | v :: vs => Everywhere p v ∧ ItemsEverywhere p vs

def MembersEverywhere (p : Json → Prop) : List (String × Json) → Prop
  | [] => True
  | (_, v) :: ms => Everywhere p v ∧ MembersEverywhere p ms

end

def IsExact : Json → Prop
  | .num (.int n) => Number.fits n = true
  | .num (.float _) => False
  | _ => True

/-! ## First characters -/

theorem skipSpace_of_head {c : Char} (h : isSpace c = false) (rest : List Char) :
    skipSpace (c :: rest) = c :: rest := List.dropWhile_cons_of_neg (Bool.not_eq_true _ ▸ h)

theorem isSpace_of_isDigit {c : Char} (h : isDigit c = true) : isSpace c = false := by
  simp only [isSpace, Bool.or_eq_false_iff, decide_eq_false_iff_not]
  refine ⟨⟨⟨?_, ?_⟩, ?_⟩, ?_⟩ <;> (rintro rfl; exact absurd h (by decide))

theorem readValue_digit {fuel depth : Nat} {c : Char} (h : isDigit c = true) (rest : List Char) :
    readValue (fuel + 1) depth (c :: rest) = readNumber false (c :: rest) := by
  rw [readValue.eq_def]
  simp only [skipSpace_of_head (isSpace_of_isDigit h)]
  -- none of the characters that begin another kind of value is a digit
  split
  case h_9 heq => cases heq; exact if_pos h
  all_goals (next heq => cases heq; try exact absurd h (by decide))

theorem chars_head {v : Json} (h : v.Everywhere IsExact) :
    ∃ c cs, v.chars = c :: cs ∧ isSpace c = false ∧ c ≠ ']' := by
  cases v with
  | null => exact ⟨_, _, rfl, by decide, by decide⟩
  | bool b => cases b <;> exact ⟨_, _, rfl, by decide, by decide⟩
  | str s => exact ⟨_, _, rfl, by decide, by decide⟩
  | arr items => cases items <;> exact ⟨_, _, rfl, by decide, by decide⟩
  | obj members => cases members <;> exact ⟨_, _, rfl, by decide, by decide⟩
  | num n =>
    cases n with
    | float => exact absurd h id
    | int n =>
      rw [chars, Number.text, intText]
      split
      · exact ⟨_, _, rfl, by decide, by decide⟩
      · obtain ⟨c, cs, hdigits⟩ := List.exists_cons_of_ne_nil (@Nat.toDigits_ne_nil n.natAbs 10)
        have hc : isDigit c = true := isDigit_of_mem_toDigits (hdigits ▸ List.mem_cons_self)
        refine ⟨c, cs, hdigits, isSpace_of_isDigit hc, ?_⟩
        rintro rfl
        exact absurd hc (by decide)

theorem delimited_itemChars (vs : List Json) (rest : List Char) :
    Delimited (itemChars vs ++ rest) := by
  cases vs <;> exact ⟨by decide, by decide, by decide, by decide⟩

theorem delimited_memberChars (ms : List (String × Json)) (rest : List Char) :
    Delimited (memberChars ms ++ rest) := by
  cases ms with
  | nil => exact ⟨by decide, by decide, by decide, by decide⟩
  | cons m ms => exact ⟨by decide, by decide, by decide, by decide⟩

/-! ## Reading back -/

theorem readValue_intText {fuel depth : Nat} {n : Int} {rest : List Char}
    (hn : Number.fits n = true) (hrest : Delimited rest) :
    readValue (fuel + 1) depth (intText n ++ rest) = (.num (.int n), .rest rest) := by
  unfold intText
  split
  next hneg =>
    have habs : -(n.natAbs : Int) = n := by omega
    rw [List.cons_append, readValue.eq_def]
    simp only [skipSpace_of_head (c := '-') (by decide)]
    rw [readNumber_negative (by rwa [habs]) (by omega) hrest, habs]
  next hpos =>
    have habs : (n.natAbs : Int) = n := by omega
    obtain ⟨c, cs, hdigits⟩ := List.exists_cons_of_ne_nil (@Nat.toDigits_ne_nil n.natAbs 10)
    have hc : isDigit c = true := isDigit_of_mem_toDigits (hdigits ▸ List.mem_cons_self)
    have hread := readNumber_natural (by rwa [habs]) hrest
    rw [hdigits, habs] at hread
    rw [hdigits, List.cons_append, readValue_digit hc]
    exact hread

theorem readValue_stringText (fuel depth : Nat) (s : String) (rest : List Char) :
    readValue (fuel + 1) depth (stringText s ++ rest) = (.str s, .rest rest) := by
  rw [stringText, List.cons_append, List.append_assoc, readValue.eq_def]
  simp only [skipSpace_of_head (c := '"') (by decide)]
  rw [readString, List.singleton_append, scanString_escaped]

theorem bounded_list (depth : Nat) (items : List Json) (rest : List Char) :
    bounded (depth + 1) .listTooDeep (.list (itemDocuments (depth + 1) items) none, .rest rest) =
      ((arr items).toDocument depth, .rest rest) := by
  unfold bounded toDocument
  split_ifs <;> rfl

theorem bounded_table (depth : Nat) (members : List (String × Json)) (rest : List Char) :
    bounded (depth + 1) .tableTooDeep
        (.table (memberDocuments (depth + 1) members) none, .rest rest) =
      ((obj members).toDocument depth, .rest rest) := by
  unfold bounded toDocument
  split_ifs <;> rfl

mutual

theorem readValue_chars (v : Json) {fuel depth : Nat} {rest : List Char}
    (hv : v.Everywhere IsExact) (hrest : Delimited rest) (hfuel : 2 * v.chars.length + 1 ≤ fuel) :
    readValue fuel depth (v.chars ++ rest) = (v.toDocument depth, .rest rest) := by
  obtain ⟨fuel, rfl⟩ : ∃ less, fuel = less + 1 := ⟨fuel - 1, by omega⟩
  cases v with
  | null => rfl
  | bool b => cases b <;> rfl
  | num n =>
    cases n with
    | int n => exact readValue_intText hv hrest
    | float => exact absurd hv id
  | str s => exact readValue_stringText _ _ _ _
  | arr items =>
    rw [← bounded_list, readValue.eq_def]
    cases items with
    | nil => rfl
    | cons v vs =>
      simp only [chars, List.length_cons, List.length_append] at hfuel
      have hread : readItems fuel (depth + 1) (v.chars ++ (itemChars vs ++ rest)) =
          (itemDocuments (depth + 1) (v :: vs), none, .rest rest) :=
        readItems_chars v vs hv.2 (by omega)
      obtain ⟨c, cs, hchars, hspace, hbracket⟩ := chars_head hv.2.1
      rw [hchars] at hread
      simp only [chars, List.cons_append, List.append_assoc, hchars,
        skipSpace_of_head (c := '[') (by decide), skipSpace_of_head hspace]
      congr 1
      split
      next heq => exact absurd (List.cons.inj heq).1 hbracket
      next heq => cases heq
      next => rw [← List.cons_append, hread]
  | obj members =>
    rw [← bounded_table, readValue.eq_def]
    cases members with
    | nil => rfl
    | cons m ms =>
      obtain ⟨k, v⟩ := m
      simp only [chars, List.length_cons, List.length_append] at hfuel
      have hread : readMembers fuel (depth + 1)
          (stringText k ++ ':' :: (v.chars ++ (memberChars ms ++ rest))) =
            (memberDocuments (depth + 1) ((k, v) :: ms), none, .rest rest) :=
        readMembers_chars k v ms hv.2 (by omega)
      simp only [stringText, List.cons_append, List.append_assoc, List.nil_append] at hread
      simp only [chars, stringText, List.cons_append, List.append_assoc, List.nil_append,
        skipSpace_of_head (c := '\x7b') (by decide), skipSpace_of_head (c := '"') (by decide)]
      congr 1
      split
      next heq => cases heq
      next heq => cases heq
      next => rw [hread]
termination_by fuel

theorem readItems_chars (v : Json) (vs : List Json) {fuel depth : Nat} {rest : List Char}
    (hvs : ItemsEverywhere IsExact (v :: vs))
    (hfuel : 2 * (v.chars.length + (itemChars vs).length) + 2 ≤ fuel) :
    readItems fuel depth (v.chars ++ (itemChars vs ++ rest)) =
      (itemDocuments depth (v :: vs), none, .rest rest) := by
  obtain ⟨fuel, rfl⟩ : ∃ less, fuel = less + 1 := ⟨fuel - 1, by omega⟩
  have hv : readValue fuel depth (v.chars ++ (itemChars vs ++ rest)) =
      (v.toDocument depth, .rest (itemChars vs ++ rest)) :=
    readValue_chars v hvs.1 (delimited_itemChars vs rest) (by omega)
  rw [readItems.eq_def]
  simp only [hv]
  cases vs with
  | nil => rfl
  | cons v' vs =>
    simp only [itemChars, List.length_cons, List.length_append] at hfuel
    have hrest : readItems fuel depth (v'.chars ++ (itemChars vs ++ rest)) =
        (itemDocuments depth (v' :: vs), none, .rest rest) :=
      readItems_chars v' vs hvs.2 (by omega)
    obtain ⟨c, cs, hchars, hspace, hbracket⟩ := chars_head hvs.2.1
    rw [hchars] at hrest
    simp only [itemChars, List.cons_append, List.append_assoc,
      skipSpace_of_head (c := ',') (by decide), hchars, skipSpace_of_head hspace]
    split
    next heq => exact absurd (List.cons.inj heq).1 hbracket
    next => rw [← List.cons_append, hrest]; rfl
termination_by fuel

theorem readMembers_chars (k : String) (v : Json) (ms : List (String × Json)) {fuel depth : Nat}
    {rest : List Char} (hms : MembersEverywhere IsExact ((k, v) :: ms))
    (hfuel : 2 * (v.chars.length + (memberChars ms).length) + 2 ≤ fuel) :
    readMembers fuel depth (stringText k ++ ':' :: (v.chars ++ (memberChars ms ++ rest))) =
      (memberDocuments depth ((k, v) :: ms), none, .rest rest) := by
  obtain ⟨fuel, rfl⟩ : ∃ less, fuel = less + 1 := ⟨fuel - 1, by omega⟩
  have hv : readValue fuel depth (v.chars ++ (memberChars ms ++ rest)) =
      (v.toDocument depth, .rest (memberChars ms ++ rest)) :=
    readValue_chars v hms.1 (delimited_memberChars ms rest) (by omega)
  rw [stringText, List.cons_append, List.append_assoc, readMembers.eq_def]
  simp only [skipSpace_of_head (c := '"') (by decide), List.singleton_append, scanString_escaped,
    skipSpace_of_head (c := ':') (by decide), hv]
  cases ms with
  | nil => rfl
  | cons m ms =>
    obtain ⟨k', v'⟩ := m
    simp only [memberChars, List.length_cons, List.length_append] at hfuel
    have hrest : readMembers fuel depth
        (stringText k' ++ ':' :: (v'.chars ++ (memberChars ms ++ rest))) =
          (memberDocuments depth ((k', v') :: ms), none, .rest rest) :=
      readMembers_chars k' v' ms hms.2 (by omega)
    simp only [memberChars, List.cons_append, List.append_assoc,
      skipSpace_of_head (c := ',') (by decide), hrest]
    rfl
termination_by fuel

end

theorem document_text {v : Json} (hv : v.Everywhere IsExact) :
    document v.text = (v.toDocument 0, false) := by
  have hread : readValue (2 * v.chars.length + 2) 0 (v.chars ++ []) =
      (v.toDocument 0, .rest []) := readValue_chars v hv trivial (by omega)
  rw [List.append_nil] at hread
  unfold document text
  simp only [String.toList_ofList, hread]
  rfl

end ApiGateway.Json
