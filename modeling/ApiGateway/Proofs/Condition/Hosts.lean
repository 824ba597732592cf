import ApiGateway.Condition.Evaluate
import ApiGateway.Proofs.Http.Forms
import ApiGateway.Proofs.Http.Port
import ApiGateway.Proofs.Mount.Host

/-! Hosts of endpoints beside comparisons of the host. An endpoint puts its host in lower case and a
comparison folds the letters of ASCII alone, which comes to the same except for the Kelvin sign, the
one character beyond ASCII with a lower case in it. -/

namespace ApiGateway

def kelvinSign : Char := Char.ofNat 0x212A

namespace Text

/-- What a character may become in lower case. Beyond ASCII the Kelvin sign becomes a letter of
ASCII; what becomes of any other character is not all ASCII. -/
inductive Lowers : Char → List Char → Prop where
  | ascii {c} (h : c.toNat < 0x80) : Lowers c [c.toLower]
  | kelvin : Lowers kelvinSign ['k']
  | beyond {c lower} (h : 0x80 ≤ c.toNat) (hc : c ≠ kelvinSign)
      (hlower : ∃ d ∈ lower, 0x80 ≤ d.toNat) : Lowers c lower

def IsLowerCase (text lower : String) : Prop :=
  ∃ pieces, List.Forall₂ Lowers text.toList pieces ∧ lower.toList = pieces.flatten

def kelvinAsLetter (text : String) : String :=
  String.ofList (text.toList.map fun c => if c = kelvinSign then 'k' else c)

end Text

variable {c : Char} {lower : List Char} {host expected authority : String} {r : Request}

/-! ## Lower case -/

theorem eq_kelvinSign_iff : c = kelvinSign ↔ c.toNat = 0x212A := by
  constructor
  · rintro rfl
    decide
  · intro h
    rw [kelvinSign, ← h, Char.ofNat_toNat]

theorem Text.IsAscii.toNat_lt (h : Text.IsAscii host) :
    ∀ c ∈ host.toList.map Char.toLower, c.toNat < 0x80 := by
  intro c hc
  obtain ⟨d, hd, rfl⟩ := List.mem_map.mp hc
  exact toNat_toLower_lt (h d hd)

theorem Text.Lowers.cases_lowerHostChar (h : Text.Lowers c lower) :
    lower = [lowerHostChar c] ∨
      (∃ d ∈ lower, 0x80 ≤ d.toNat) ∧ 0x80 ≤ (lowerHostChar c).toNat := by
  cases h with
  | ascii h => exact Or.inl (by rw [lowerHostChar_of_lt h])
  | kelvin => exact Or.inl rfl
  | beyond h hc hlower =>
    refine Or.inr ⟨hlower, ?_⟩
    rw [lowerHostChar, if_neg (mt eq_kelvinSign_iff.mpr hc), toLower_of_le h]
    exact h

theorem map_toLower_flatten_iff {expected : List Char} {pieces : List (List Char)}
    (h : List.Forall₂ Text.Lowers expected pieces) {folded : List Char}
    (hfolded : ∀ c ∈ folded, c.toNat < 0x80) :
    folded = pieces.flatten.map Char.toLower ↔
      folded = (expected.map lowerHostChar).map Char.toLower := by
  induction h generalizing folded with
  | nil => rfl
  | @cons c piece expected pieces hpiece _ ih =>
    rw [List.flatten_cons, List.map_append, List.map_cons, List.map_cons]
    rcases hpiece.cases_lowerHostChar with rfl | ⟨⟨d, hd, hbeyond⟩, hchar⟩
    · cases folded with
      | nil => exact iff_of_false nofun nofun
      | cons first folded =>
        rw [List.map_singleton, List.singleton_append, List.cons.injEq, List.cons.injEq,
          ih (List.forall_mem_cons.mp hfolded).2]
    · -- one side has a character beyond ASCII in this place, and so has the other
      have hnone : ∀ e : Char, 0x80 ≤ e.toNat → e ∉ folded := fun e he hmem =>
        absurd (hfolded e hmem) (Nat.not_lt.mpr he)
      apply iff_of_false
      · rintro rfl
        refine hnone d hbeyond (List.mem_append_left _ (List.mem_map.mpr ⟨d, hd, ?_⟩))
        exact toLower_of_le hbeyond
      · rintro rfl
        refine hnone _ hchar ?_
        rw [toLower_of_le hchar]
        exact List.mem_cons_self

theorem eqIgnoreCase_of_isLowerCase (hhost : Text.IsAscii host) {lower : String}
    (h : Text.IsLowerCase expected lower) :
    Text.eqIgnoreCase host lower =
      Text.eqIgnoreCase host (String.ofList (expected.toList.map lowerHostChar)) := by
  obtain ⟨pieces, hpieces, hlower⟩ := h
  rw [Bool.eq_iff_iff, Text.eqIgnoreCase_iff, Text.eqIgnoreCase_iff, hlower, String.toList_ofList]
  exact map_toLower_flatten_iff hpieces hhost.toNat_lt

/-! ## The Kelvin sign -/

theorem toLower_lowerHostChar (c : Char) :
    (lowerHostChar c).toLower = (if c = kelvinSign then 'k' else c).toLower := by
  by_cases hc : c = kelvinSign
  · rw [if_pos hc, lowerHostChar, if_pos (eq_kelvinSign_iff.mp hc)]
  · rw [if_neg hc, lowerHostChar, if_neg (mt eq_kelvinSign_iff.mpr hc),
      toLower_eq_self (isUpper_toLower c)]

theorem eqIgnoreCase_kelvinAsLetter (host expected : String) :
    Text.eqIgnoreCase host (String.ofList (expected.toList.map lowerHostChar)) =
      Text.eqIgnoreCase host (Text.kelvinAsLetter expected) := by
  have hsame : (expected.toList.map lowerHostChar).map Char.toLower =
      (expected.toList.map fun c => if c = kelvinSign then 'k' else c).map Char.toLower := by
    rw [List.map_map, List.map_map]
    exact List.map_congr_left fun c _ => toLower_lowerHostChar c
  rw [Text.eqIgnoreCase, Text.eqIgnoreCase, Text.kelvinAsLetter, String.toList_ofList,
    String.toList_ofList, hsame]

theorem kelvinAsLetter_of_not_mem (h : kelvinSign ∉ expected.toList) :
    Text.kelvinAsLetter expected = expected := by
  refine map_eq_self fun c hc => if_neg ?_
  rintro rfl
  exact h hc

theorem eqIgnoreCase_of_kelvinSign_mem (hhost : Text.IsAscii host)
    (h : kelvinSign ∈ expected.toList) : Text.eqIgnoreCase host expected = false := by
  rw [Bool.eq_false_iff]
  intro hsame
  have hmem : kelvinSign.toLower ∈ host.toList.map Char.toLower := by
    rw [Text.eqIgnoreCase_iff.mp hsame]
    exact List.mem_map_of_mem h
  exact absurd (hhost.toNat_lt _ hmem) (by decide)

/-! ## Agreement -/

theorem isAscii_hostname (h : Text.IsAscii authority) : Text.IsAscii (hostname authority) := by
  obtain ⟨lost, hlost, -⟩ := exists_lost authority
  rw [hlost, Text.IsAscii, String.toList_append] at h
  exact (List.forall_mem_append.mp h).1

namespace Condition

theorem evaluate_host_of_none (h : r.host? = none) (expected : String) :
    evaluate r.view (.equals .host expected) = .error .missingHost := by
  simp only [evaluate, View.resolve, View.answer, Field.read, Request.view, h]
  rfl

theorem evaluate_host_of_some (h : r.host? = some authority) (expected : String) :
    evaluate r.view (.equals .host expected) =
      .ok (Text.eqIgnoreCase (hostname authority) expected) := by
  simp only [evaluate, View.resolve, View.answer, Field.read, Request.view, h]
  rfl

theorem isForHost_iff : isForHost expected r = true ↔
    evaluate r.view (.equals .host (Text.kelvinAsLetter expected)) = .ok true := by
  unfold isForHost
  cases hhost : r.host? with
  | none => rw [evaluate_host_of_none hhost]; exact iff_of_false nofun nofun
  | some authority =>
    rw [evaluate_host_of_some hhost, Except.ok.injEq, ← eqIgnoreCase_kelvinAsLetter]

/-- Without a readable host an endpoint with a host is for no request, and a comparison of the host
fails. With one a comparison has a value, whatever the text; the endpoint is for the request exactly
if the comparison with its host holds, each Kelvin sign read as a letter, in whichever lower case the
host is put. So the two disagree about a host with a Kelvin sign that the request is for once the
sign is read so, and about no other. -/
theorem comparison_agrees_isForHost (expected : String) (r : Request) (hlegal : r.uri.Legal) :
    let comparison (expected : String) := evaluate r.view (.equals .host expected)
    (r.host? = none ↔
      (∀ value, r.headers.get? .host = some value → value.text? = none) ∧
        r.uri.authority = none) ∧
    (r.host? = none →
      isForHost expected r = false ∧ comparison expected = .error .missingHost) ∧
    (∀ authority, r.host? = some authority →
      comparison expected = .ok (Text.eqIgnoreCase (hostname authority) expected) ∧
        ∀ lower, Text.IsLowerCase expected lower →
          isForHost expected r = Text.eqIgnoreCase (hostname authority) lower) ∧
    (isForHost expected r = true ↔ comparison (Text.kelvinAsLetter expected) = .ok true) ∧
    ((isForHost expected r = true ↔ comparison expected = .ok true) ↔
      (kelvinSign ∈ expected.toList →
        comparison (Text.kelvinAsLetter expected) ≠ .ok true)) := by
  intro comparison
  refine ⟨Request.host?_eq_none, fun hnone => ?_, fun authority hhost => ?_, isForHost_iff, ?_⟩
  · exact ⟨by simp only [isForHost, hnone], evaluate_host_of_none hnone expected⟩
  · refine ⟨evaluate_host_of_some hhost expected, fun lower hlower => ?_⟩
    have hascii := isAscii_hostname (Request.isAscii_host? hlegal hhost)
    simp only [isForHost, hhost]
    exact (eqIgnoreCase_of_isLowerCase hascii hlower).symm
  · rw [isForHost_iff]
    by_cases hkelvin : kelvinSign ∈ expected.toList
    · have hnever : comparison expected ≠ .ok true := by
        intro hholds
        cases hhost : r.host? with
        | none => cases (evaluate_host_of_none hhost expected).symm.trans hholds
        | some authority =>
          have hascii := isAscii_hostname (Request.isAscii_host? hlegal hhost)
          have hvalue := (evaluate_host_of_some hhost expected).symm.trans hholds
          rw [eqIgnoreCase_of_kelvinSign_mem hascii hkelvin] at hvalue
          cases hvalue
      rw [iff_false_right hnever]
      exact ⟨fun hother _ => hother, fun hother => hother hkelvin⟩
    · rw [kelvinAsLetter_of_not_mem hkelvin]
      exact iff_of_true Iff.rfl fun hmem => absurd hmem hkelvin

def onwards : Request := .ofUri ⟨some .http, some "A.Example:8080", ⟨"/x", none⟩⟩

theorem comparison_agrees_isForHost_onwards :
    onwards.uri.Legal ∧ isForHost "a.EXAMPLE" onwards = true ∧
      evaluate onwards.view (.equals .host "a.EXAMPLE") = .ok true := by
  have hread : Uri.parse? "http://A.Example:8080/x" = some onwards.uri := by decide
  have hlegal := Uri.legal_of_parse? hread
  obtain ⟨-, -, -, -, hagrees⟩ := comparison_agrees_isForHost "a.EXAMPLE" onwards hlegal
  have hfor : isForHost "a.EXAMPLE" onwards = true := by decide
  exact ⟨hlegal, hfor, (hagrees.mpr fun hmem => absurd hmem (by decide)).mp hfor⟩

/-- A configuration with the sign for a host is valid. -/
theorem comparison_differs_at_kelvin :
    let expected := String.ofList [kelvinSign]
    let r : Request := .toHost ⟨Text.encodeUtf8 "k", by decide⟩
    (Config.atHost expected).validate = .ok () ∧ isForHost expected r = true ∧
      evaluate r.view (.equals .host expected) = .ok false :=
  ⟨rfl, rfl, rfl⟩

end Condition
end ApiGateway
