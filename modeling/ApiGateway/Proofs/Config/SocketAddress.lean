import ApiGateway.Config.Validation
import ApiGateway.Proofs.Http.Authority
import Mathlib.Data.List.TakeWhile

/-! Socket addresses as hosts and ports. What comes before the port of a socket address has no blank
in it, so that cutting at the last colon finds the address and its port. -/

namespace ApiGateway
namespace SocketAddress

def IsVisible (c : Char) : Prop := 0x21 ≤ c.toNat ∧ c.toNat < 0x80

instance (c : Char) : Decidable (IsVisible c) := instDecidableAnd

def Leaves (chars rest : List Char) : Prop := ∃ used, chars = used ++ rest ∧ ∀ c ∈ used, IsVisible c

variable {chars rest more digits : List Char} {c : Char} {isDigit : Char → Bool}
  {isLegal : List Char → Bool}

theorem Leaves.refl (chars : List Char) : Leaves chars chars := ⟨[], rfl, List.forall_mem_nil _⟩

theorem Leaves.trans (h : Leaves chars rest) (hmore : Leaves rest more) : Leaves chars more := by
  obtain ⟨used, rfl, hused⟩ := h
  obtain ⟨next, rfl, hnext⟩ := hmore
  exact ⟨used ++ next, (List.append_assoc ..).symm, List.forall_mem_append.mpr ⟨hused, hnext⟩⟩

theorem isVisible_of_isDigit (h : c.isDigit = true) : IsVisible c := by
  simp only [Char.isDigit, Bool.and_eq_true, decide_eq_true_eq, ge_iff_le,
    UInt32.le_iff_toNat_le] at h
  have hlow : 48 ≤ c.toNat := h.1
  have hhigh : c.toNat ≤ 57 := h.2
  exact ⟨by omega, by omega⟩

theorem isVisible_of_isHexDigit (h : isHexDigit c = true) : IsVisible c := by
  simp only [isHexDigit, Text.hexValue?, Bool.and_eq_true, decide_eq_true_eq] at h
  split at h
  next hrange => exact ⟨by omega, by omega⟩
  split at h
  next hrange => exact ⟨by omega, by omega⟩
  split at h
  next hrange => exact ⟨by omega, by omega⟩
  next => cases h

theorem isBlank_of_isVisible (h : IsVisible c) : Text.isBlank c = false := by
  obtain ⟨hlow, hhigh⟩ := h
  simp only [Text.isBlank, Bool.or_eq_false_iff, Bool.and_eq_false_iff, decide_eq_false_iff_not,
    beq_eq_false_iff_ne]
  omega

/-! ## Readers -/

theorem eq_of_skipChar? (h : skipChar? c chars = some rest) : chars = c :: rest := by
  cases chars with
  | nil => cases h
  | cons d chars =>
    rw [skipChar?, Option.ite_none_right_eq_some, Option.some.injEq] at h
    rw [h.1, h.2]

theorem leaves_of_skipChar? (hc : IsVisible c) (h : skipChar? c chars = some rest) :
    Leaves chars rest :=
  ⟨[c], eq_of_skipChar? h, List.forall_mem_singleton.mpr hc⟩

theorem leaves_of_skipDigits? (hdigit : ∀ c, isDigit c = true → IsVisible c)
    (h : skipDigits? isDigit isLegal chars = some rest) : Leaves chars rest := by
  rw [skipDigits?, Option.ite_none_right_eq_some, Option.some.injEq] at h
  obtain ⟨-, rfl⟩ := h
  exact ⟨chars.takeWhile isDigit, List.takeWhile_append_dropWhile.symm,
    fun c hc => hdigit c (List.mem_takeWhile_imp hc)⟩

theorem leaves_of_skipOctet? (h : skipOctet? chars = some rest) : Leaves chars rest :=
  leaves_of_skipDigits? (fun _ => isVisible_of_isDigit) h

theorem leaves_of_skipGroup? (h : skipGroup? chars = some rest) : Leaves chars rest :=
  leaves_of_skipDigits? (fun _ => isVisible_of_isHexDigit) h

theorem leaves_of_skipIpv4? (h : skipIpv4? chars = some rest) : Leaves chars rest := by
  have hdot : IsVisible '.' := by decide
  simp only [skipIpv4?, Option.bind_eq_bind, Option.bind_eq_some_iff] at h
  obtain ⟨_, h1, _, hdot1, _, h2, _, hdot2, _, h3, _, hdot3, h4⟩ := h
  have hfirst := (leaves_of_skipOctet? h1).trans (leaves_of_skipChar? hdot hdot1)
  have hsecond := (leaves_of_skipOctet? h2).trans (leaves_of_skipChar? hdot hdot2)
  have hthird := (leaves_of_skipOctet? h3).trans (leaves_of_skipChar? hdot hdot3)
  exact ((hfirst.trans hsecond).trans hthird).trans (leaves_of_skipOctet? h4)

theorem Groups.leaves_read (room : Nat) (first : Bool) (chars : List Char) :
    Leaves chars (read room first chars).rest := by
  induction room generalizing first chars with
  | zero => exact .refl chars
  | succ room ih =>
    have hstart : ∀ {reader : List Char → Option (List Char)} {rest},
        (∀ {chars rest}, reader chars = some rest → Leaves chars rest) →
          (if first then some chars else skipChar? ':' chars).bind reader = some rest →
            Leaves chars rest := by
      intro reader rest hreader h
      obtain ⟨start, hstart, hread⟩ := Option.bind_eq_some_iff.mp h
      refine Leaves.trans ?_ (hreader hread)
      split at hstart
      · rw [Option.some.inj hstart]
        exact .refl start
      · exact leaves_of_skipChar? (by decide) hstart
    simp only [read]
    split
    next rest hdotted =>
      rw [Option.ite_none_left_eq_some] at hdotted
      exact hstart leaves_of_skipIpv4? hdotted.2
    next =>
      split
      next rest hgroup => exact (hstart leaves_of_skipGroup? hgroup).trans (ih false rest)
      next => exact .refl chars

theorem leaves_of_skipIpv6? (h : skipIpv6? chars = some rest) : Leaves chars rest := by
  have hhead := Groups.leaves_read 8 true chars
  have hcolon : IsVisible ':' := by decide
  simp only [skipIpv6?] at h
  split at h
  · rw [← Option.some.inj h]
    exact hhead
  · rw [Option.ite_none_left_eq_some] at h
    simp only [Option.bind_eq_bind, Option.bind_eq_some_iff, Option.some.injEq] at h
    obtain ⟨-, _, hfirst, tail, hsecond, rfl⟩ := h
    have hcolons := (leaves_of_skipChar? hcolon hfirst).trans (leaves_of_skipChar? hcolon hsecond)
    exact (hhead.trans hcolons).trans (Groups.leaves_read _ true tail)

theorem leaves_scope (chars : List Char) : Leaves chars ((skipScope? chars).getD chars) := by
  cases hscope : skipScope? chars with
  | none => exact .refl chars
  | some rest =>
    obtain ⟨next, hpercent, hdigits⟩ := Option.bind_eq_some_iff.mp hscope
    exact (leaves_of_skipChar? (by decide) hpercent).trans
      (leaves_of_skipDigits? (fun _ => isVisible_of_isDigit) hdigits)

theorem of_skipPort? (h : skipPort? chars = some []) :
    ∃ digits, chars = ':' :: digits ∧ isPort digits = true ∧ digits.all Char.isDigit = true := by
  obtain ⟨digits, hcolon, hdigits⟩ := Option.bind_eq_some_iff.mp h
  rw [skipDigits?, Option.ite_none_right_eq_some, Option.some.injEq,
    List.dropWhile_eq_nil_iff] at hdigits
  obtain ⟨hlegal, hall⟩ := hdigits
  rw [List.takeWhile_eq_self_iff.mpr hall, Bool.and_eq_true] at hlegal
  have hdigit : digits.all Char.isDigit = true := List.all_eq_true.mpr hall
  refine ⟨digits, eq_of_skipChar? hcolon, ?_, hdigit⟩
  have hplus : '+' ∉ digits := not_mem_of_all_isDigit hdigit rfl
  unfold isPort
  split
  next rest => exact absurd List.mem_cons_self hplus
  next => simp only [hlegal.1, hdigit, hlegal.2, Bool.and_self]

end SocketAddress

open SocketAddress

theorem isHostAndPort_of_isSocketAddress {chars : List Char} (h : isSocketAddress chars = true) :
    isHostAndPort chars = true := by
  have hsplit : ∃ rest, Leaves chars rest ∧ skipPort? rest = some [] := by
    rcases Option.or_eq_some_iff.mp (eq_of_beq h) with hv4 | ⟨-, hv6⟩
    · obtain ⟨rest, haddress, hport⟩ := Option.bind_eq_some_iff.mp hv4
      exact ⟨rest, leaves_of_skipIpv4? haddress, hport⟩
    · simp only [skipV6?, Option.bind_eq_bind, Option.bind_eq_some_iff] at hv6
      obtain ⟨inner, hopen, after, haddress, rest, hclose, hport⟩ := hv6
      refine ⟨rest, ?_, hport⟩
      have hinner := (leaves_of_skipChar? (by decide) hopen).trans (leaves_of_skipIpv6? haddress)
      exact (hinner.trans (leaves_scope after)).trans (leaves_of_skipChar? (by decide) hclose)
  obtain ⟨rest, ⟨host, rfl, hvisible⟩, hport⟩ := hsplit
  obtain ⟨digits, rfl, hdigits, hall⟩ := of_skipPort? hport
  have hcolon : ':' ∉ digits := not_mem_of_all_isDigit hall rfl
  have hhost : host ≠ [] := by
    -- neither kind of address begins with a colon
    rintro rfl
    cases h
  have hblank : host.any Text.isBlank = false :=
    List.any_eq_false.mpr fun c hc => Bool.eq_false_iff.mp (isBlank_of_isVisible (hvisible c hc))
  rw [isHostAndPort, Text.splitLast?_append hcolon]
  simp only [hblank, hdigits, Bool.not_false, Bool.and_true, Bool.not_eq_true',
    List.isEmpty_eq_false_iff]
  exact hhost

theorem isBindAddress_eq (address : String) :
    isBindAddress address = isHostAndPort address.toList := by
  rw [isBindAddress, Bool.or_eq_right_iff_imp]
  exact isHostAndPort_of_isSocketAddress

/-! ## Addresses to bind to -/

def IsPort (port : String) : Prop :=
  ∃ sign digits : List Char, port.toList = sign ++ digits ∧ (sign = [] ∨ sign = ['+']) ∧
    digits ≠ [] ∧ (∀ c ∈ digits, c.isDigit = true) ∧ decimalValue digits < 65536

def IsHostAndPort (address : String) : Prop :=
  ∃ host port : String, address = host ++ ":" ++ port ∧ ':' ∉ port.toList ∧ host ≠ "" ∧
    (∀ c ∈ host.toList, Text.isBlank c = false) ∧ IsPort port

theorem isPort_iff {port : String} : isPort port.toList = true ↔ IsPort port := by
  have hdigits : ∀ {digits : List Char},
      (!digits.isEmpty && digits.all Char.isDigit && decide (decimalValue digits < 65536)) = true ↔
        digits ≠ [] ∧ (∀ c ∈ digits, c.isDigit = true) ∧ decimalValue digits < 65536 := by
    intro digits
    simp only [Bool.and_eq_true, Bool.not_eq_true', List.isEmpty_eq_false_iff, List.all_eq_true,
      decide_eq_true_eq, and_assoc]
  unfold isPort
  split
  next rest hport =>
    rw [hdigits]
    constructor
    · exact fun h => ⟨['+'], rest, hport, Or.inr rfl, h⟩
    · rintro ⟨sign, digits, hsplit, rfl | rfl, hlegal⟩
      · -- a plus sign is no digit
        have hplus := hlegal.2.1 '+' (by rw [← List.nil_append digits, ← hsplit, hport]; simp)
        cases hplus
      · rw [hport] at hsplit
        rw [(List.cons.inj hsplit).2]
        exact hlegal
  next hnone =>
    rw [hdigits]
    constructor
    · exact fun h => ⟨[], port.toList, rfl, Or.inl rfl, h⟩
    · rintro ⟨sign, digits, hsplit, rfl | rfl, hlegal⟩
      · rw [hsplit]
        exact hlegal
      · exact absurd hsplit (hnone digits)

theorem isBindAddress_iff {address : String} :
    isBindAddress address = true ↔ IsHostAndPort address := by
  rw [isBindAddress_eq]
  unfold isHostAndPort
  constructor
  · intro h
    split at h
    next host port hsplit =>
      obtain ⟨haddress, hcolon⟩ := Text.eq_of_splitLast? hsplit
      simp only [Bool.and_eq_true, Bool.not_eq_true', List.isEmpty_eq_false_iff,
        List.any_eq_false] at h
      obtain ⟨⟨hhost, hblank⟩, hport⟩ := h
      refine ⟨String.ofList host, String.ofList port, ?_, ?_, ?_, ?_, ?_⟩
      · rw [← String.toList_inj, toList_port, String.toList_ofList, String.toList_ofList]
        exact haddress
      · rwa [String.toList_ofList]
      · rwa [← String.toList_eq_nil_iff.ne, String.toList_ofList]
      · rw [String.toList_ofList]
        exact fun c hc => Bool.eq_false_iff.mpr (hblank c hc)
      · rwa [← isPort_iff, String.toList_ofList]
    next => cases h
  · rintro ⟨host, port, rfl, hcolon, hhost, hblank, hport⟩
    rw [toList_port, Text.splitLast?_append hcolon]
    simp only [isPort_iff.mpr hport, Bool.and_true, Bool.and_eq_true, Bool.not_eq_true',
      List.isEmpty_eq_false_iff, List.any_eq_false]
    exact ⟨mt String.toList_eq_nil_iff.mp hhost, fun c hc => Bool.eq_false_iff.mp (hblank c hc)⟩

end ApiGateway
