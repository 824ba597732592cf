import ApiGateway.Http.Host
import ApiGateway.Proofs.Http.Casing

/-! Authorities: a host and perhaps a port. What is taken for the host of an authority is its host,
and a host never looks like one with a port behind it. -/

namespace ApiGateway

def IsBracketed (host : String) : Prop :=
  ∃ inner : String, ']' ∉ inner.toList ∧ host = "[" ++ inner ++ "]"

inductive IsHost : String → Prop where
  | name {host : String} (hcolon : ':' ∉ host.toList) (hbracket : host.toList.head? ≠ some '[') :
      IsHost host
  | address {inner : String} (hinner : ']' ∉ inner.toList) : IsHost ("[" ++ inner ++ "]")

structure Authority where
  host : String
  port : Option String
  isHost : IsHost host
  isPort : ∀ digits ∈ port, digits.toList.all Char.isDigit = true

def Authority.text (a : Authority) : String :=
  match a.port with
  | none => a.host
  | some digits => a.host ++ ":" ++ digits

section

variable {a b host other digits : String} {chars after : List Char}

theorem hostnameChars_of_head? (h : chars.head? ≠ some '[') :
    hostnameChars chars =
      match Text.splitLast? ':' chars with
      | some (host, port) => if port.all Char.isDigit then host else chars
      | none => chars := by
  unfold hostnameChars
  split
  next => exact absurd rfl h
  next => rfl

theorem hostnameChars_address (h : ']' ∉ chars) :
    hostnameChars ('[' :: (chars ++ ']' :: after)) = '[' :: (chars ++ [']']) := by
  rw [hostnameChars, Text.splitFirst?_append h]

theorem toList_brackets (inner : String) :
    ("[" ++ inner ++ "]").toList = '[' :: (inner.toList ++ [']']) := by
  rw [String.toList_append, String.toList_append, List.append_assoc]
  rfl

theorem toList_port : (host ++ ":" ++ digits).toList = host.toList ++ ':' :: digits.toList := by
  rw [String.toList_append, String.toList_append, List.append_assoc]
  rfl

theorem not_mem_of_all_isDigit {c : Char} (h : chars.all Char.isDigit = true)
    (hc : c.isDigit = false) : c ∉ chars := by
  intro hmem
  rw [List.all_eq_true.mp h c hmem] at hc
  cases hc

theorem IsHost.hostnameChars_eq (h : IsHost host) :
    hostnameChars host.toList = host.toList := by
  cases h with
  | name hcolon hbracket =>
    rw [hostnameChars_of_head? hbracket, Text.splitLast?_eq_none hcolon]
  | @address inner hinner =>
    rw [toList_brackets]
    exact hostnameChars_address hinner

theorem IsHost.hostnameChars_port (h : IsHost host) (hdigits : chars.all Char.isDigit = true) :
    hostnameChars (host.toList ++ ':' :: chars) = host.toList := by
  cases h with
  | name hcolon hbracket =>
    have hhead : (host.toList ++ ':' :: chars).head? ≠ some '[' := by
      cases hhost : host.toList with
      | nil => exact fun hcolon => nomatch hcolon
      | cons c rest =>
        rw [hhost] at hbracket
        exact hbracket
    have hafter : ':' ∉ chars := not_mem_of_all_isDigit hdigits rfl
    rw [hostnameChars_of_head? hhead, Text.splitLast?_append hafter]
    exact if_pos hdigits
  | @address inner hinner =>
    rw [toList_brackets, List.cons_append, List.append_assoc]
    exact hostnameChars_address hinner

theorem IsBracketed.of_eqIgnoreCase (h : IsBracketed a) (hsame : Text.eqIgnoreCase a b = true) :
    IsBracketed b := by
  obtain ⟨inner, hinner, rfl⟩ := h
  have hchars : b.toList.map Char.toLower = '[' :: (inner.toList.map Char.toLower ++ [']']) := by
    rw [← Text.eqIgnoreCase_iff.mp hsame, toList_brackets, List.map_cons, List.map_append]
    rfl
  obtain ⟨opening, behind, hb, hopening, hbehind⟩ := List.map_eq_cons_iff.mp hchars
  obtain ⟨front, back, rfl, hfront, hback⟩ := List.map_eq_append_iff.mp hbehind
  obtain ⟨closing, rfl, hclosing⟩ := List.map_eq_singleton_iff.mp hback
  obtain rfl := (toLower_eq_iff rfl).mp hopening
  obtain rfl := (toLower_eq_iff rfl).mp hclosing
  refine ⟨String.ofList front, ?_, ?_⟩
  · rwa [String.toList_ofList, ← mem_map_toLower rfl, hfront, mem_map_toLower rfl]
  · rw [← String.toList_inj, hb, toList_brackets, String.toList_ofList]

theorem IsHost.lower (h : IsHost host) :
    IsHost (String.ofList (host.toList.map Char.toLower)) := by
  cases h with
  | name hcolon hbracket =>
    apply IsHost.name
    · rwa [String.toList_ofList, mem_map_toLower rfl]
    · rw [String.toList_ofList, List.head?_map]
      intro hhead
      obtain ⟨c, hc, hlower⟩ := Option.map_eq_some_iff.mp hhead
      rw [toLower_eq_iff rfl] at hlower
      exact hbracket (hlower ▸ hc)
  | @address inner hinner =>
    have hbracketed : IsBracketed ("[" ++ inner ++ "]") := ⟨inner, hinner, rfl⟩
    obtain ⟨other, hother, hlower⟩ := hbracketed.of_eqIgnoreCase (Text.eqIgnoreCase_lower _)
    rw [hlower]
    exact .address hother

theorem IsHost.eqIgnoreCase_port (h : IsHost host) (hother : IsHost other)
    (hdigits : digits.toList.all Char.isDigit = true) :
    Text.eqIgnoreCase host (other ++ ":" ++ digits) = false := by
  -- were a host a host with a port in some letter case, it would lose the port and keep it
  rw [Bool.eq_false_iff]
  intro hsame
  have hchars : host.toList.map Char.toLower =
      other.toList.map Char.toLower ++ ':' :: digits.toList := by
    rw [Text.eqIgnoreCase_iff.mp hsame, toList_port, List.map_append, List.map_cons,
      map_toLower_of_all_isDigit hdigits]
    rfl
  have hkeeps := h.lower.hostnameChars_eq
  have hloses := hother.lower.hostnameChars_port hdigits
  rw [String.toList_ofList] at hkeeps hloses
  rw [hchars, hloses, List.self_eq_append_right] at hkeeps
  cases hkeeps

theorem Authority.hostname_text (a : Authority) : hostname a.text = a.host := by
  obtain ⟨host, port, hhost, hport⟩ := a
  cases port with
  | none =>
    simp only [text, hostname]
    rw [hhost.hostnameChars_eq, String.ofList_toList]
  | some digits =>
    simp only [text, hostname]
    rw [toList_port, hhost.hostnameChars_port (hport digits rfl), String.ofList_toList]

end

end ApiGateway
