import ApiGateway.Config.Validation
import ApiGateway.Mount.Endpoint
import ApiGateway.Proofs.Http.Authority
import ApiGateway.Proofs.Http.Readable

/-! Endpoints with a host. A request loses its port before its host is compared and an endpoint does
not, so that an endpoint whose host has a port is for no request with a well-formed host. -/

namespace ApiGateway

variable {r : Request} {value : HeaderValue} {text expected authority : String}

theorem lowerHostChar_of_lt {c : Char} (h : c.toNat < 0x80) : lowerHostChar c = c.toLower :=
  if_neg (by omega)

theorem eqIgnoreCase_lowerHostChar (h : Text.IsAscii expected) (host : String) :
    Text.eqIgnoreCase host (String.ofList (expected.toList.map lowerHostChar)) =
      Text.eqIgnoreCase host expected := by
  have hlower : (expected.toList.map lowerHostChar).map Char.toLower =
      expected.toList.map Char.toLower := by
    rw [List.map_map]
    refine List.map_congr_left fun c hc => ?_
    rw [Function.comp_apply, lowerHostChar_of_lt (h c hc), toLower_eq_self (isUpper_toLower c)]
  rw [Text.eqIgnoreCase, Text.eqIgnoreCase, String.toList_ofList, hlower]

theorem isForHost_of_isAscii (h : Text.IsAscii expected) (hhost : r.host? = some authority) :
    isForHost expected r = Text.eqIgnoreCase (hostname authority) expected := by
  simp only [isForHost, hhost]
  exact eqIgnoreCase_lowerHostChar h _

theorem Request.host?_of_isAscii (hvalue : r.headers.get? .host = some value)
    (hbytes : Text.encodeUtf8 text = value.bytes) (hascii : Text.IsAscii text) :
    r.host? = some text := by
  rw [host?, hvalue, Option.bind_some, HeaderValue.text?_eq_some.mpr ⟨hbytes, hascii⟩,
    Option.some_or]

namespace Authority

variable {own theirs : Authority}

theorem host_eq_of_text_eq (h : theirs.text = own.text) : theirs.host = own.host := by
  rw [← theirs.hostname_text, h, own.hostname_text]

theorem eqIgnoreCase_text :
    Text.eqIgnoreCase theirs.host own.text = true ↔
      own.port = none ∧ Text.eqIgnoreCase theirs.host own.host = true := by
  obtain ⟨host, port, hhost, hport⟩ := own
  cases port with
  | none => exact (and_iff_right rfl).symm
  | some digits =>
    have hdiffers := theirs.isHost.eqIgnoreCase_port hhost (hport digits rfl)
    exact iff_of_false (Bool.eq_false_iff.mp hdiffers) nofun

end Authority

namespace Endpoint

/-- Of the requests that name an authority, an endpoint with a host admits those below its path that
are for its host, whatever their port and letter case, provided that the endpoint has no port
itself. With one it admits none of them, not even those that name its host and port as they
stand. -/
theorem admits_iff_same_host {own : Authority} (hown : Text.IsAscii own.text) (path : String) :
    ∀ (r : Request) (value : HeaderValue) (theirs : Authority),
      r.headers.get? .host = some value → Text.encodeUtf8 theirs.text = value.bytes →
      Text.IsAscii theirs.text →
      let e : Endpoint := ⟨path, some own.text⟩
      (e.admits r = true ↔ e.admitsPath r = true ∧ own.port = none ∧
        Text.eqIgnoreCase theirs.host own.host = true) ∧
      (theirs.text = own.text → (e.admits r = true ↔ e.admitsPath r = true ∧ own.port = none)) := by
  intro r value theirs hvalue hbytes htheirs e
  have hhost := Request.host?_of_isAscii hvalue hbytes htheirs
  have hadmits : e.admits r = true ↔ e.admitsPath r = true ∧ own.port = none ∧
      Text.eqIgnoreCase theirs.host own.host = true := by
    have happly : e.admits r = (e.admitsPath r && isForHost own.text r) := rfl
    rw [happly, isForHost_of_isAscii hown hhost, theirs.hostname_text, Bool.and_eq_true,
      Authority.eqIgnoreCase_text]
  refine ⟨hadmits, fun htext => ?_⟩
  have hsame : Text.eqIgnoreCase theirs.host own.host = true := by
    rw [Authority.host_eq_of_text_eq htext]
    exact Text.eqIgnoreCase_iff.mpr rfl
  rw [hadmits, and_iff_left hsame]

end Endpoint

/-! An address literal and a name with a port. -/

def Authority.linkLocal : Authority :=
  ⟨"[" ++ "FE80::A" ++ "]", none, .address (by decide), nofun⟩

def Authority.linkLocalPort : Authority :=
  ⟨"[" ++ "fe80::a" ++ "]", some "8443", .address (by decide), by decide⟩

def Authority.namePort : Authority :=
  ⟨"a.example.com", some "8080", .name (by decide) (by decide), by decide⟩

def Request.toHost (host : HeaderValue) : Request :=
  { Request.ofUri .root with headers := [(.host, host)] }

def Config.atHost (host : String) : Config :=
  { Config.default with pipelines := [⟨"p", [], [⟨"/", some host⟩]⟩] }

namespace Endpoint

theorem admits_iff_same_host_literal :
    let value : HeaderValue := ⟨Text.encodeUtf8 "[fe80::a]:8443", by decide⟩
    Text.IsAscii Authority.linkLocal.text ∧
      Text.encodeUtf8 Authority.linkLocalPort.text = value.bytes ∧
      Text.IsAscii Authority.linkLocalPort.text ∧
      Endpoint.admits ⟨"/", some Authority.linkLocal.text⟩ (.toHost value) = true := by
  intro value
  have hown : Text.IsAscii Authority.linkLocal.text := by decide
  have htheirs : Text.IsAscii Authority.linkLocalPort.text := by decide
  refine ⟨hown, rfl, htheirs, ?_⟩
  have h := admits_iff_same_host hown "/" (.toHost value) value .linkLocalPort rfl rfl htheirs
  exact h.1.mpr ⟨by decide, rfl, by decide⟩

/-- The configuration is accepted, and the request asks for the very host that stands in it. -/
theorem admits_own_host_fails :
    let value : HeaderValue := ⟨Text.encodeUtf8 "a.example.com:8080", by decide⟩
    let e : Endpoint := ⟨"/", some Authority.namePort.text⟩
    (Config.atHost Authority.namePort.text).validate = .ok () ∧
      (Config.atHost Authority.namePort.text).pipelines.flatMap (·.endpoints) = [e] ∧
      (Request.toHost value).headers.get? .host = some value ∧
      Text.encodeUtf8 Authority.namePort.text = value.bytes ∧
      e.admitsPath (.toHost value) = true ∧ e.admits (.toHost value) = false :=
  ⟨rfl, rfl, rfl, rfl, rfl, rfl⟩

end Endpoint
end ApiGateway
