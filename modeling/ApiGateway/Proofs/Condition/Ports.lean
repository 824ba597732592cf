import ApiGateway.Proofs.Condition.Dependence
import ApiGateway.Proofs.Condition.Hosts

/-! Ports in conditions and endpoints. Neither sees the port of a well-formed authority, and neither
takes a request for a host unless its authority is that host with a port or without, or the host is
an address in brackets, behind which anything may stand. -/

namespace ApiGateway

variable {a b : Authority} {r q : Request} {expected : String}

theorem isForHost_of_same_host (h : a.host = b.host) (hr : r.host? = some a.text)
    (hq : q.host? = some b.text) (expected : String) :
    isForHost expected q = isForHost expected r := by
  simp only [isForHost, hr, hq, Authority.hostname_text, h]

theorem Endpoint.admits_of_same_host {e : Endpoint} (h : a.host = b.host)
    (hr : r.host? = some a.text) (hq : q.host? = some b.text)
    (hpath : e.admitsPath q = e.admitsPath r) :
    e.admits q = e.admits r := by
  rw [admits, admits, hpath]
  cases e.host with
  | none => rfl
  | some expected => exact congrArg _ (isForHost_of_same_host h hr hq expected)

namespace Condition

variable {view other : View} {c : Condition}

theorem resolvesAlike_of_same_host (h : a.host = b.host) (hview : view.host = some a.text)
    (hother : other.host = some b.text) {fields : List Field}
    (hfields : ∀ field ∈ fields, field ≠ .host → other.resolve field = view.resolve field) :
    view.ResolvesAlike other fields := by
  intro field hfield
  by_cases hhost : field = .host
  · subst hhost
    simp only [View.resolve, View.answer, Field.read, hview, hother, Authority.hostname_text, h]
  · exact hfields field hfield hhost

/-- Taking the host of an authority leaves a host as it is and takes the port off one that has one,
and there is no more to take off the second time. So where two well-formed authorities have the same
host no condition tells them apart by looking up the host, nor does an endpoint with a host. -/
theorem hostname_drops_port :
    (∀ host, IsHost host → hostname host = host ∧
      ∀ digits : String, digits.toList.all Char.isDigit = true →
        hostname (host ++ ":" ++ digits) = host) ∧
    (∀ a : Authority, hostname (hostname a.text) = hostname a.text) ∧
    ∀ a b : Authority, a.host = b.host →
      (∀ (view other : View) (c : Condition), view.host = some a.text → other.host = some b.text →
        (∀ field ∈ (c.observe view []).2, field ≠ .host →
          other.resolve field = view.resolve field) →
        c.observe other [] = c.observe view [] ∧ c.evaluate other = c.evaluate view) ∧
      ∀ r q : Request, r.host? = some a.text → q.host? = some b.text →
        (∀ expected, isForHost expected q = isForHost expected r) ∧
        ∀ e : Endpoint, e.admitsPath q = e.admitsPath r → e.admits q = e.admits r := by
  have hhost : ∀ host, IsHost host → hostname host = host := fun host h =>
    Authority.hostname_text ⟨host, none, h, fun _ hmem => absurd hmem (Option.not_mem_none _)⟩
  refine ⟨fun host h => ⟨hhost host h, fun digits hdigits => ?_⟩, fun a => ?_, fun a b h =>
    ⟨fun view other c hview hother hfields => ?_, fun r q hr hq => ⟨?_, fun e hpath => ?_⟩⟩⟩
  · exact Authority.hostname_text ⟨host, some digits, h, fun _ heq => Option.some.inj heq ▸ hdigits⟩
  · rw [a.hostname_text, hhost a.host a.isHost]
  · have hobserve := observe_eq_of_resolvesAlike (resolvesAlike_of_same_host h hview hother hfields)
    refine ⟨hobserve, ?_⟩
    rw [← fst_observe other c [], hobserve, fst_observe]
  · exact isForHost_of_same_host h hr hq
  · exact Endpoint.admits_of_same_host h hr hq hpath

theorem hostname_drops_port_literal :
    let other : Authority := { Authority.linkLocalPort with port := some "", isPort := by decide }
    let r := Request.toHost ⟨Text.encodeUtf8 "[fe80::a]:8443", by decide⟩
    let q := Request.toHost ⟨Text.encodeUtf8 "[fe80::a]:", by decide⟩
    let c := (Condition.equals .host "[FE80::A]").and (.pathPrefix "/")
    let e : Endpoint := ⟨"/", some "[FE80::A]"⟩
    hostname "[fe80::a]" = "[fe80::a]" ∧ hostname ("[fe80::a]" ++ ":" ++ "8443") = "[fe80::a]" ∧
      Authority.linkLocalPort.host = other.host ∧ r.host? = some Authority.linkLocalPort.text ∧
      q.host? = some other.text ∧ c.evaluate q.view = .ok true ∧ e.admits q = true := by
  intro other r q c e
  obtain ⟨hhosts, -, hports⟩ := hostname_drops_port
  obtain ⟨hhost, hport⟩ := hhosts "[fe80::a]" Authority.linkLocalPort.isHost
  have hr : r.host? = some Authority.linkLocalPort.text := by decide
  have hq : q.host? = some other.text := by decide
  obtain ⟨hconditions, hrequests⟩ := hports .linkLocalPort other rfl
  have hsame := (hconditions r.view q.view c hr hq (by decide)).2
  refine ⟨hhost, hport "8443" (by decide), rfl, hr, hq, ?_, ?_⟩
  · rw [hsame]
    decide
  · rw [(hrequests r q hr hq).2 e rfl]
    decide

theorem names_of_comparison (h : evaluate view (.equals .host expected) = .ok true) :
    ∃ authority, view.host = some authority ∧ Names authority expected := by
  simp only [evaluate, View.resolve, View.answer, Field.read] at h
  cases hhost : view.host with
  | none =>
    rw [hhost] at h
    cases h
  | some authority =>
    rw [hhost] at h
    exact ⟨authority, rfl, names_of_hostname (Except.ok.inj h)⟩

/-- What stands before the part that falls away is the host, and that part is a port or nothing,
unless an address in brackets has more than a port behind it, all of which falls away. So a request
meets a comparison of its host only if its authority names the host compared with, and an endpoint
admits it only if it names the endpoint's host, each Kelvin sign in that read as a letter. -/
theorem hostname_loses_port_unless_address (authority expected : String) :
    (∃ lost, authority = hostname authority ++ lost) ∧
    (PortOnly authority ↔ ∃ lost, authority = hostname authority ++ lost ∧ IsPortSuffix lost) ∧
    (∀ inner rest : String, ']' ∉ inner.toList → authority = "[" ++ inner ++ "]" ++ rest →
      hostname authority = "[" ++ inner ++ "]") ∧
    (∀ view : View, evaluate view (.equals .host expected) = .ok true →
      ∃ named, view.host = some named ∧ Names named expected) ∧
    ∀ (e : Endpoint) (r : Request), e.host = some expected → e.admits r = true →
      ∃ named, r.host? = some named ∧ Names named (Text.kelvinAsLetter expected) := by
  refine ⟨?_, portOnly_iff, fun inner rest hinner hauthority => ?_, fun _ => names_of_comparison,
    fun e r hexpected hadmits => ?_⟩
  · obtain ⟨lost, hlost, -⟩ := exists_lost authority
    exact ⟨lost, hlost⟩
  · rw [hauthority, hostname_address hinner]
  · rw [Endpoint.admits, hexpected, Bool.and_eq_true] at hadmits
    exact names_of_comparison (isForHost_iff.mp hadmits.2)

theorem hostname_loses_port_unless_address_name :
    let r := Request.toHost ⟨Text.encodeUtf8 "A.Example:8080", by decide⟩
    let e : Endpoint := ⟨"/", some "a.EXAMPLE"⟩
    evaluate r.view (.equals .host "a.EXAMPLE") = .ok true ∧ e.admits r = true ∧
      Names "A.Example:8080" "a.EXAMPLE" ∧
      Names "A.Example:8080" (Text.kelvinAsLetter "a.EXAMPLE") ∧
      ∃ lost, "A.Example:8080" = hostname "A.Example:8080" ++ lost ∧ IsPortSuffix lost := by
  intro r e
  obtain ⟨-, hlost, -, hcomparison, hendpoint⟩ :=
    hostname_loses_port_unless_address "A.Example:8080" "a.EXAMPLE"
  have hequals : evaluate r.view (.equals .host "a.EXAMPLE") = .ok true := by decide
  have hadmits : e.admits r = true := by decide
  have hhost : r.host? = some "A.Example:8080" := by decide
  obtain ⟨_, hseen, hnames⟩ := hcomparison r.view hequals
  obtain rfl := Option.some.inj (hhost.symm.trans hseen)
  obtain ⟨_, hseen, hnamesLetters⟩ := hendpoint e r rfl hadmits
  obtain rfl := Option.some.inj (hhost.symm.trans hseen)
  have honly : PortOnly "A.Example:8080" := portOnly_of_head?_ne (by decide)
  exact ⟨hequals, hadmits, hnames, hnamesLetters, hlost.mp honly⟩

/-- Text behind an address falls away although it is no port. -/
theorem hostname_loses_text :
    let r := Request.toHost ⟨Text.encodeUtf8 "[::1]evil", by decide⟩
    hostname "[::1]evil" = "[::1]" ∧
      (¬ ∃ lost, "[::1]evil" = hostname "[::1]evil" ++ lost ∧ IsPortSuffix lost) ∧
      r.host? = some "[::1]evil" ∧ evaluate r.view (.equals .host "[::1]") = .ok true ∧
      Endpoint.admits ⟨"/", some "[::1]"⟩ r = true ∧
      ∀ lost, IsPortSuffix lost → Text.eqIgnoreCase "[::1]evil" ("[::1]" ++ lost) = false := by
  intro r
  have hport : ∀ {lost}, IsPortSuffix lost → lost.toList.map Char.toLower ≠ "evil".toList := by
    intro lost h hsame
    have hne : lost ≠ "" := by
      rintro rfl
      cases hsame
    have hhead := congrArg List.head? hsame
    rw [List.head?_map, h.head?_eq hne] at hhead
    cases hhead
  refine ⟨by decide, ?_, by decide, by decide, by decide, fun lost h => ?_⟩
  · rintro ⟨lost, hlost, h⟩
    have hevil : "[::1]" ++ "evil" = "[::1]" ++ lost := hlost
    obtain rfl := (String.append_right_inj _).mp hevil
    exact hport h (by decide)
  · rw [Bool.eq_false_iff]
    intro hsame
    have hchars : "[::1]evil".toList.map Char.toLower =
        "[::1]".toList.map Char.toLower ++ "evil".toList := by decide
    rw [Text.eqIgnoreCase_iff, String.toList_append, List.map_append, hchars] at hsame
    exact hport h (List.append_cancel_left hsame).symm

end Condition
end ApiGateway
