import ApiGateway.Http.Host
import ApiGateway.Http.Message
import ApiGateway.Proofs.Http.Readable
import ApiGateway.Proofs.Http.Uri

/-! URIs by their form. A URI that was read has a path from the root or none at all, except for the
asterisk, and an authority of ASCII characters. -/

namespace ApiGateway

variable {text authority : String} {chars : List Char} {c : Char} {u v : Uri}

/-! ## Paths -/

namespace Uri

def asterisk : Uri := ⟨none, none, ⟨"*", none⟩⟩

theorem head?_target_of_parse? {rest : List Char} {target : PathQuery}
    (h : PathQuery.parse? ('/' :: rest) = some target) : target.path.toList.head? = some '/' := by
  obtain ⟨-, hpath⟩ := PathQuery.legal_of_parse? h
  rw [hpath, List.takeWhile_cons_of_pos (by decide), List.head?_cons]

theorem path_of_parseFull? (h : parseFull? chars = some u) :
    u.path = "" ∨ u.path.toList.head? = some '/' := by
  cases hscheme : u.scheme with
  | some scheme =>
    have habsolute : u.IsAbsolute := by rw [IsAbsolute, hscheme, Option.isSome_some]
    exact Or.inr (rooted_of_parseFull? h (Or.inr habsolute)).head?
  | none =>
    unfold parseFull? at h
    split at h
    next => cases h
    next =>
      split at h
      · obtain rfl := Option.some.inj h
        exact Or.inl rfl
      · cases h
    next =>
      simp only at h
      split at h
      · obtain ⟨target, -, rfl⟩ := Option.map_eq_some_iff.mp h
        cases hscheme
      · cases h

theorem path_of_parse? (h : parse? text = some u) :
    (text = "*" ∧ u = asterisk) ∨ (text ≠ "*" ∧ (u.path = "" ∨ u.path.toList.head? = some '/')) := by
  have hother {chars : List Char} (hchars : text.toList = chars) (hne : chars ≠ ['*']) :
      text ≠ "*" := by
    rintro rfl
    exact hne hchars.symm
  unfold parse? at h
  split at h
  · cases h
  · split at h
    next => cases h
    next htext =>
      obtain rfl := Option.some.inj h
      exact Or.inl ⟨String.toList_inj.mp htext, rfl⟩
    next rest htext =>
      obtain ⟨target, htarget, rfl⟩ := Option.map_eq_some_iff.mp h
      exact Or.inr ⟨hother htext (by simp), Or.inr (head?_path (head?_target_of_parse? htarget))⟩
    next hne _ =>
      exact Or.inr ⟨hother rfl hne, path_of_parseFull? h⟩

end Uri

/-! ## Authorities -/

theorem lt_of_isAlphanum (h : c.isAlphanum = true) : c.toNat < 0x80 := by
  have hval : ∀ {bound : UInt32}, c.val ≤ bound → bound.toNat < 0x80 → c.toNat < 0x80 :=
    fun hle hlt => Nat.lt_of_le_of_lt (UInt32.le_iff_toNat_le.mp hle) hlt
  rcases Bool.or_eq_true_iff.mp h with h | h
  · rcases Bool.or_eq_true_iff.mp h with h | h
    · exact hval (of_decide_eq_true h).2 (by decide)
    · exact hval (of_decide_eq_true (Bool.and_eq_true_iff.mp h).2) (by decide)
  · exact hval (of_decide_eq_true (Bool.and_eq_true_iff.mp h).2) (by decide)

theorem lt_of_isUriChar (h : isUriChar c = true) : c.toNat < 0x80 := by
  rcases Bool.or_eq_true_iff.mp h with h | h
  · exact lt_of_isAlphanum h
  · have hsymbols : ∀ d ∈ "!#$&'()*+,-./:;=?@[]_~".toList, d.toNat < 0x80 := by simp
    exact hsymbols c (List.contains_iff_mem.mp h)

theorem AuthorityScan.lt_of_step {s t : AuthorityScan} (h : s.step c = some t) :
    c.toNat < 0x80 := by
  by_cases hmark : c ∈ [':', '[', ']', '@', '%']
  · have hmarks : ∀ d ∈ [':', '[', ']', '@', '%'], d.toNat < 0x80 := by simp
    exact hmarks c hmark
  · simp only [List.mem_cons, List.not_mem_nil, or_false, not_or] at hmark
    obtain ⟨hcolon, hopen, hclose, hat, hpercent⟩ := hmark
    simp only [step, hcolon, hopen, hclose, hat, hpercent, if_false] at h
    split at h
    next hchar => exact lt_of_isUriChar hchar
    next => cases h

theorem AuthorityScan.lt_of_run {s t : AuthorityScan} (h : s.run chars = some t) :
    ∀ c ∈ chars, c.toNat < 0x80 := by
  induction chars generalizing s with
  | nil => exact List.forall_mem_nil _
  | cons c rest ih =>
    obtain ⟨next, hstep, hrun⟩ := Option.bind_eq_some_iff.mp h
    exact List.forall_mem_cons.mpr ⟨lt_of_step hstep, ih hrun⟩

theorem isAscii_of_isAuthority (h : isAuthority authority.toList = true) :
    Text.IsAscii authority := by
  unfold isAuthority at h
  split at h
  next hrun => exact AuthorityScan.lt_of_run hrun
  next => cases h

theorem authorityHost_of_splitLast? {before after : List Char}
    (h : Text.splitLast? '@' chars = some (before, after)) :
    authorityHost chars = authorityHost after := by
  have hnone : Text.splitLast? '@' after = none :=
    Text.splitLast?_eq_none (Text.eq_of_splitLast? h).2
  simp only [authorityHost, h, hnone]

theorem mem_authorityHost_of_none (hnone : Text.splitLast? '@' chars = none)
    (h : c ∈ authorityHost chars) : c ∈ chars ∨ c = '[' ∨ c = ']' := by
  simp only [authorityHost, hnone] at h
  split at h
  next rest hbracket =>
    rw [hbracket]
    rcases List.mem_cons.mp h with rfl | h
    · exact Or.inr (Or.inl rfl)
    rcases List.mem_append.mp h with h | h
    · exact Or.inl (List.mem_cons_of_mem _ ((List.takeWhile_sublist _).mem h))
    · exact Or.inr (Or.inr (List.mem_singleton.mp h))
  next => exact Or.inl ((List.takeWhile_sublist _).mem h)

theorem mem_authorityHost (h : c ∈ authorityHost chars) : c ∈ chars ∨ c = '[' ∨ c = ']' := by
  cases hsplit : Text.splitLast? '@' chars with
  | none => exact mem_authorityHost_of_none hsplit h
  | some parts =>
    obtain ⟨before, after⟩ := parts
    obtain ⟨rfl, hafter⟩ := Text.eq_of_splitLast? hsplit
    rw [authorityHost_of_splitLast? hsplit] at h
    refine (mem_authorityHost_of_none (Text.splitLast?_eq_none hafter) h).imp_left fun hc => ?_
    exact List.mem_append_right _ (List.mem_cons_of_mem _ hc)

namespace Uri

def Legal (u : Uri) : Prop := ∀ authority ∈ u.authority, isAuthority authority.toList = true

theorem legal_of_parseFull? (h : parseFull? chars = some u) : u.Legal := by
  unfold parseFull? at h
  split at h
  next => cases h
  next =>
    split at h
    next hlegal =>
      obtain rfl := Option.some.inj h
      rintro _ ⟨⟩
      rw [String.toList_ofList]
      exact (Bool.and_eq_true_iff.mp hlegal).1
    next => cases h
  next =>
    simp only at h
    split at h
    next hlegal =>
      obtain ⟨target, -, rfl⟩ := Option.map_eq_some_iff.mp h
      rintro _ ⟨⟩
      rw [String.toList_ofList]
      exact (Bool.and_eq_true_iff.mp hlegal).1
    next => cases h

theorem legal_of_parse? (h : parse? text = some u) : u.Legal := by
  unfold parse? at h
  split at h
  · cases h
  · split at h
    next => cases h
    next =>
      obtain rfl := Option.some.inj h
      nofun
    next =>
      obtain ⟨target, -, rfl⟩ := Option.map_eq_some_iff.mp h
      nofun
    next => exact legal_of_parseFull? h

end Uri

/-! ## Hosts -/

namespace Request

variable {r : Request}

theorem host?_eq_none : r.host? = none ↔
    (∀ value, r.headers.get? .host = some value → value.text? = none) ∧ r.uri.authority = none := by
  rw [host?, Option.or_eq_none_iff, Option.bind_eq_none_iff, Uri.host?, Option.map_eq_none_iff]

theorem isAscii_host? (hlegal : r.uri.Legal) (hhost : r.host? = some authority) :
    Text.IsAscii authority := by
  rcases Option.or_eq_some_iff.mp hhost with hheader | ⟨-, hhost⟩
  · obtain ⟨value, -, htext⟩ := Option.bind_eq_some_iff.mp hheader
    exact (HeaderValue.text?_eq_some.mp htext).2
  · obtain ⟨whole, hwhole, rfl⟩ := Option.map_eq_some_iff.mp hhost
    have hascii := isAscii_of_isAuthority (hlegal whole hwhole)
    intro c hc
    rw [String.toList_ofList] at hc
    rcases mem_authorityHost hc with hc | rfl | rfl
    · exact hascii c hc
    · decide
    · decide

end Request
end ApiGateway
