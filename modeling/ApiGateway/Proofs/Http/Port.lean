import ApiGateway.Proofs.Http.Authority

/-! What falls away from an authority. Behind an address in brackets it is whatever is there, and
everywhere else a port or nothing. -/

namespace ApiGateway

inductive IsPortSuffix : String → Prop where
  | none : IsPortSuffix ""
  | digits {digits : String} (h : digits.toList.all Char.isDigit = true) :
      IsPortSuffix (":" ++ digits)

/-- If it begins with an address in brackets, there is no more than a port behind it. -/
def PortOnly (authority : String) : Prop :=
  ∀ inner rest : String, ']' ∉ inner.toList → authority = "[" ++ inner ++ "]" ++ rest →
    IsPortSuffix rest

/-- The authority is the host and a port, up to the case of ASCII letters, or the host is an address
and there is more than a port behind it. -/
def Names (authority host : String) : Prop :=
  ∃ lost, Text.eqIgnoreCase authority (host ++ lost) = true ∧
    (PortOnly authority → IsPortSuffix lost) ∧ (IsPortSuffix lost ∨ IsBracketed host)

variable {a host inner lost : String}

theorem IsPortSuffix.head?_eq (h : IsPortSuffix lost) (hne : lost ≠ "") :
    lost.toList.head? = some ':' := by
  cases h with
  | none => exact absurd rfl hne
  | digits =>
    rw [String.toList_append]
    rfl

theorem hostname_address (h : ']' ∉ inner.toList) (rest : String) :
    hostname ("[" ++ inner ++ "]" ++ rest) = "[" ++ inner ++ "]" := by
  rw [← String.toList_inj, hostname, String.toList_ofList, String.toList_append, toList_brackets,
    List.cons_append, List.append_assoc, List.singleton_append, hostnameChars_address h]

theorem exists_lost (a : String) :
    ∃ lost, a = hostname a ++ lost ∧ (IsPortSuffix lost ∨ IsBracketed (hostname a)) := by
  have hkept : ∀ chars : List Char, ∃ lost, String.ofList chars = String.ofList chars ++ lost ∧
      (IsPortSuffix lost ∨ IsBracketed (String.ofList chars)) :=
    fun _ => ⟨"", (String.append_empty).symm, Or.inl .none⟩
  obtain ⟨chars, rfl⟩ : ∃ chars, a = String.ofList chars := ⟨_, (String.ofList_toList).symm⟩
  rw [hostname, String.toList_ofList]
  unfold hostnameChars
  split
  next rest =>
    split
    next inner after hsplit =>
      -- an address, and no look at what stands behind it
      obtain ⟨rfl, hinner⟩ := Text.eq_of_splitFirst? hsplit
      refine ⟨String.ofList after, ?_, Or.inr ⟨String.ofList inner, ?_, ?_⟩⟩
      · rw [← String.ofList_append, List.cons_append, List.append_assoc, List.singleton_append]
      · rwa [String.toList_ofList]
      · rw [← String.toList_inj, toList_brackets, String.toList_ofList, String.toList_ofList]
    next => exact hkept _
  next =>
    split
    next before after hsplit =>
      split
      next hdigits =>
        refine ⟨":" ++ String.ofList after, ?_, Or.inl (.digits ?_)⟩
        · rw [(Text.eq_of_splitLast? hsplit).1, ← String.append_assoc, ← String.toList_inj,
            toList_port, String.toList_ofList, String.toList_ofList, String.toList_ofList]
        · rwa [String.toList_ofList]
      next => exact hkept _
    next => exact hkept _

theorem portOnly_of_head?_ne (h : a.toList.head? ≠ some '[') : PortOnly a := by
  rintro inner rest - rfl
  rw [String.toList_append, toList_brackets] at h
  exact absurd rfl h

theorem portOnly_iff : PortOnly a ↔ ∃ lost, a = hostname a ++ lost ∧ IsPortSuffix lost := by
  constructor
  · intro h
    obtain ⟨lost, hlost, hport | ⟨inner, hinner, hhost⟩⟩ := exists_lost a
    · exact ⟨lost, hlost, hport⟩
    · exact ⟨lost, hlost, h inner lost hinner (hhost ▸ hlost)⟩
  · rintro ⟨lost, hlost, hport⟩ inner rest hinner rfl
    rw [hostname_address hinner] at hlost
    rwa [(String.append_right_inj _).mp hlost]

theorem names_of_hostname (h : Text.eqIgnoreCase (hostname a) host = true) : Names a host := by
  obtain ⟨lost, hlost, hport⟩ := exists_lost a
  refine ⟨lost, ?_, fun honly => ?_, hport.imp_right fun hbracketed => hbracketed.of_eqIgnoreCase h⟩
  · rw [Text.eqIgnoreCase_iff] at h ⊢
    rw [hlost, String.toList_append, String.toList_append, List.map_append, List.map_append, h]
  · obtain ⟨other, hother, hport⟩ := portOnly_iff.mp honly
    rwa [(String.append_right_inj _).mp (hlost.symm.trans hother)]

end ApiGateway
