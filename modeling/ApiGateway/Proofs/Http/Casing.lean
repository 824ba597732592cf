import ApiGateway.Http.Token
import ApiGateway.Text.Split

/-! Letter case in tokens. Folding the case of ASCII letters makes no token of what is none and
spoils none, so the names of headers and methods are legal or not whatever case they come in. -/

namespace ApiGateway

theorem toLower_eq_self {c : Char} (h : c.isUpper = false) : c.toLower = c :=
  dif_neg (of_decide_eq_false h)

theorem toUpper_eq_self {c : Char} (h : c.isLower = false) : c.toUpper = c := by
  apply dif_neg
  intro hrange
  have hlower : c.isLower = true :=
    Bool.and_eq_true_iff.mpr ⟨decide_eq_true hrange.1, decide_eq_true hrange.2⟩
  rw [h] at hlower
  cases hlower

theorem isUpper_of_le {c : Char} (h : 0x80 ≤ c.toNat) : c.isUpper = false := by
  apply decide_eq_false
  intro hrange
  have hle : c.toNat ≤ 90 := UInt32.le_iff_toNat_le.mp hrange.2
  omega

theorem toLower_of_le {c : Char} (h : 0x80 ≤ c.toNat) : c.toLower = c :=
  toLower_eq_self (isUpper_of_le h)

theorem char_cases {motive : Char → Prop} (ascii : ∀ n : Fin 128, motive (Char.ofNat n))
    (other : ∀ c : Char, c.isUpper = false → c.isLower = false → motive c) (c : Char) :
    motive c := by
  rcases Nat.lt_or_ge c.toNat 128 with hlt | hge
  · have hc := ascii ⟨c.toNat, hlt⟩
    rwa [Char.ofNat_toNat] at hc
  · apply other c (isUpper_of_le hge)
    apply Bool.and_eq_false_imp.mpr
    intro _
    apply decide_eq_false
    intro hle
    have hle : c.toNat ≤ 122 := UInt32.le_iff_toNat_le.mp hle
    omega

theorem toNat_toLower_lt {c : Char} (h : c.toNat < 0x80) : c.toLower.toNat < 0x80 := by
  have hall : ∀ n : Fin 128, (Char.ofNat n).toLower.toNat < 0x80 := by decide
  have hc := hall ⟨c.toNat, h⟩
  rwa [Char.ofNat_toNat] at hc

theorem isTokenChar_toLower (c : Char) : isTokenChar c.toLower = isTokenChar c := by
  induction c using char_cases with
  | ascii n => revert n; decide
  | other c hupper => rw [toLower_eq_self hupper]

theorem isTokenChar_toUpper (c : Char) : isTokenChar c.toUpper = isTokenChar c := by
  induction c using char_cases with
  | ascii n => revert n; decide
  | other c _ hlower => rw [toUpper_eq_self hlower]

theorem isUpper_toLower (c : Char) : c.toLower.isUpper = false := by
  induction c using char_cases with
  | ascii n => revert n; decide
  | other c hupper => rw [toLower_eq_self hupper, hupper]

theorem isLower_toUpper (c : Char) : c.toUpper.isLower = false := by
  induction c using char_cases with
  | ascii n => revert n; decide
  | other c _ hlower => rw [toUpper_eq_self hlower, hlower]

theorem isLower_toLower {c : Char} (h : c.isUpper = true) : c.toLower.isLower = true := by
  induction c using char_cases with
  | ascii n => revert n; decide
  | other c hupper =>
    rw [hupper] at h
    cases h

theorem toLower_eq_iff {c d : Char} (hd : d.isAlpha = false) : c.toLower = d ↔ c = d := by
  obtain ⟨hupper, hlower⟩ := Bool.or_eq_false_iff.mp hd
  constructor
  · rintro rfl
    symm
    apply toLower_eq_self
    rw [Bool.eq_false_iff]
    intro hcapital
    rw [isLower_toLower hcapital] at hlower
    cases hlower
  · rintro rfl
    exact toLower_eq_self hupper

theorem mem_map_toLower {d : Char} {chars : List Char} (hd : d.isAlpha = false) :
    d ∈ chars.map Char.toLower ↔ d ∈ chars := by
  simp only [List.mem_map, toLower_eq_iff hd, exists_eq_right]

theorem map_toLower_of_all_isDigit {chars : List Char} (h : chars.all Char.isDigit = true) :
    chars.map Char.toLower = chars := by
  have hself : ∀ c ∈ chars, c.toLower = c := by
    intro c hc
    apply toLower_eq_self
    have hdigit := List.all_eq_true.mp h c hc
    induction c using char_cases with
    | ascii n => clear hc; revert n; decide
    | other c hupper => exact hupper
  rw [List.map_congr_left hself, List.map_id']

theorem toLower_toUpper (c : Char) : c.toUpper.toLower = c.toLower := by
  induction c using char_cases with
  | ascii n => revert n; decide
  | other c _ hlower => rw [toUpper_eq_self hlower]

theorem toUpper_toLower (c : Char) : c.toLower.toUpper = c.toUpper := by
  induction c using char_cases with
  | ascii n => revert n; decide
  | other c hupper => rw [toLower_eq_self hupper]

theorem toUpper_eq_iff {a b : Char} :
    a.toUpper = b ↔ b.isLower = false ∧ b.toLower = a.toLower := by
  constructor
  · rintro rfl
    exact ⟨isLower_toUpper a, toLower_toUpper a⟩
  · rintro ⟨hlower, hsame⟩
    rw [← toUpper_toLower, ← hsame, toUpper_toLower, toUpper_eq_self hlower]

theorem map_toUpper_eq_iff {a b : List Char} :
    a.map Char.toUpper = b ↔
      (∀ c ∈ b, c.isLower = false) ∧ b.map Char.toLower = a.map Char.toLower := by
  induction a generalizing b with
  | nil =>
    rw [List.map_nil, List.map_nil, List.map_eq_nil_iff]
    constructor
    · rintro rfl
      exact ⟨List.forall_mem_nil _, rfl⟩
    · exact fun h => h.2.symm
  | cons c rest ih =>
    cases b with
    | nil => exact iff_of_false nofun fun h => nomatch h.2
    | cons d b =>
      rw [List.map_cons, List.cons.injEq, toUpper_eq_iff, ih, List.forall_mem_cons, List.map_cons,
        List.map_cons, List.cons.injEq, and_and_and_comm]

theorem Text.eqIgnoreCase_iff {a b : String} :
    eqIgnoreCase a b = true ↔ a.toList.map Char.toLower = b.toList.map Char.toLower := beq_iff_eq

theorem Text.eqIgnoreCase_lower (text : String) :
    eqIgnoreCase text (String.ofList (text.toList.map Char.toLower)) = true := by
  have hlower : ∀ c ∈ text.toList, (Char.toLower ∘ Char.toLower) c = c.toLower :=
    fun c _ => toLower_eq_self (isUpper_toLower c)
  rw [eqIgnoreCase_iff, String.toList_ofList, List.map_map, List.map_congr_left hlower]

theorem isToken_map {fold : Char → Char} (hfold : ∀ c, isTokenChar (fold c) = isTokenChar c)
    (text : String) : isToken (String.ofList (text.toList.map fold)) = isToken text := by
  have hall : (isTokenChar ∘ fold) = isTokenChar := funext hfold
  simp only [isToken, String.toList_ofList, List.all_map, List.isEmpty_map, hall]

theorem map_eq_self {fold : Char → Char} {text : String} (h : ∀ c ∈ text.toList, fold c = c) :
    String.ofList (text.toList.map fold) = text := by
  rw [List.map_congr_left h, List.map_id', String.ofList_toList]

namespace HeaderName

theorem text_inj {m n : HeaderName} (h : m.text = n.text) : m = n := by
  cases m
  cases n
  cases h
  rfl

theorem isHeaderName_lower (text : String) :
    isHeaderName (String.ofList (text.toList.map Char.toLower)) = true ↔
      ApiGateway.isToken text = true ∧ text.length ≤ 65535 := by
  have hlower : (text.toList.map Char.toLower).all (fun c => !c.isUpper) = true := by
    simp only [List.all_map, List.all_eq_true, Function.comp_apply, isUpper_toLower, Bool.not_false,
      implies_true]
  simp only [isHeaderName, isToken_map isTokenChar_toLower, String.toList_ofList, hlower,
    String.length_ofList, List.length_map, String.length_toList, Bool.and_true, Bool.and_eq_true,
    decide_eq_true_eq]

theorem ofText?_isSome {text : String} :
    (ofText? text).isSome = true ↔ ApiGateway.isToken text = true ∧ text.length ≤ 65535 := by
  rw [← isHeaderName_lower, ofText?]
  split
  next h => exact iff_of_true rfl h
  next h => exact iff_of_false (by decide) h

theorem ofText?_text (name : HeaderName) : ofText? name.text = some name := by
  obtain ⟨text, hname⟩ := name
  -- the name is in lower case already
  have hlower : String.ofList (text.toList.map Char.toLower) = text := by
    apply map_eq_self
    intro c hc
    apply toLower_eq_self
    have hall := (Bool.and_eq_true_iff.mp (Bool.and_eq_true_iff.mp hname).1).2
    simpa only [Bool.not_eq_true'] using List.all_eq_true.mp hall c hc
  simp only [ofText?, hlower, dif_pos hname]

end HeaderName

namespace Method

theorem text_inj {m n : Method} (h : m.text = n.text) : m = n := by
  cases m
  cases n
  cases h
  rfl

theorem ofText?_isSome {text : String} :
    (ofText? text).isSome = ApiGateway.isToken text := by
  rw [ofText?]
  split
  next h => exact h.symm
  next h => exact (eq_false_of_ne_true h).symm

end Method
end ApiGateway
