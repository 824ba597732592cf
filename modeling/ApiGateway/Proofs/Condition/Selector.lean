import ApiGateway.Condition.Basic
import ApiGateway.Proofs.Http.Casing

/-! Selectors of fields: which texts name a field, and that a field's own text names it. -/

namespace ApiGateway

inductive IsSelector : String → Prop where
  | method : IsSelector "method"
  | path : IsSelector "path"
  | host : IsSelector "host"
  | header {name : String} (htoken : isToken name = true) (hlength : name.length ≤ 65535) :
      IsSelector ("header." ++ name)
  | headers {name : String} (htoken : isToken name = true) (hlength : name.length ≤ 65535) :
      IsSelector ("headers." ++ name)
  | context {name : String} (hname : name ≠ "") : IsSelector ("context." ++ name)

namespace Field

def ofParts? (kind name : String) : Option Field :=
  if kind = "header" || kind = "headers" then (HeaderName.ofText? name).map .header
  else if kind = "context" && name ≠ "" then some (.context name)
  else none

theorem ofSelector?_parts (kind : String) {s name : String}
    (hs : s.toList = kind.toList ++ '.' :: name.toList) (hkind : '.' ∉ kind.toList) :
    ofSelector? s = ofParts? kind name := by
  have hsplit : Text.splitFirst? '.' s.toList = some (kind.toList, name.toList) := by
    rw [hs, Text.splitFirst?_append hkind]
  -- none of the three words has a point in it
  have hne : ∀ word : String, '.' ∉ word.toList → s ≠ word := by
    rintro word hword rfl
    rw [hs] at hword
    exact hword (List.mem_append_right _ List.mem_cons_self)
  rw [ofSelector?, if_neg (hne _ (by decide)), if_neg (hne _ (by decide)),
    if_neg (hne _ (by decide)), hsplit]
  simp [ofParts?]

theorem ofSelector?_header (name : String) :
    ofSelector? ("header." ++ name) = (HeaderName.ofText? name).map .header :=
  ofSelector?_parts "header" (by rw [String.toList_append]; rfl) (by decide)

theorem ofSelector?_headers (name : String) :
    ofSelector? ("headers." ++ name) = (HeaderName.ofText? name).map .header :=
  ofSelector?_parts "headers" (by rw [String.toList_append]; rfl) (by decide)

theorem ofSelector?_context {name : String} (hname : name ≠ "") :
    ofSelector? ("context." ++ name) = some (.context name) := by
  have hparts : ofParts? "context" name = some (.context name) := by
    simp [ofParts?, hname]
  rw [← hparts]
  exact ofSelector?_parts "context" (by rw [String.toList_append]; rfl) (by decide)

theorem ofSelector?_cases {s : String} (h : (ofSelector? s).isSome = true) :
    s = "method" ∨ s = "path" ∨ s = "host" ∨
      ∃ kind name, s = kind ++ "." ++ name ∧ (ofParts? kind name).isSome = true := by
  by_cases hmethod : s = "method"
  · exact Or.inl hmethod
  by_cases hpath : s = "path"
  · exact Or.inr (Or.inl hpath)
  by_cases hhost : s = "host"
  · exact Or.inr (Or.inr (Or.inl hhost))
  refine Or.inr (Or.inr (Or.inr ?_))
  cases hsplit : Text.splitFirst? '.' s.toList with
  | none =>
    rw [ofSelector?, if_neg hmethod, if_neg hpath, if_neg hhost, hsplit] at h
    cases h
  | some parts =>
    obtain ⟨kind, name⟩ := parts
    obtain ⟨hchars, hkind⟩ := Text.eq_of_splitFirst? hsplit
    have hs : s.toList = (String.ofList kind).toList ++ '.' :: (String.ofList name).toList := by
      rw [String.toList_ofList, String.toList_ofList, hchars]
    rw [ofSelector?_parts _ hs (by rwa [String.toList_ofList])] at h
    refine ⟨_, _, ?_, h⟩
    apply String.toList_injective
    rw [hs, String.toList_append, String.toList_append, List.append_assoc]
    rfl

theorem ofParts?_isSome {kind name : String} (h : (ofParts? kind name).isSome = true) :
    (kind = "header" ∨ kind = "headers") ∧ (HeaderName.ofText? name).isSome = true ∨
      kind = "context" ∧ name ≠ "" := by
  unfold ofParts? at h
  split at h
  next hkind =>
    rw [Option.isSome_map] at h
    exact Or.inl ⟨by simpa using hkind, h⟩
  next =>
    split at h
    next hcontext => exact Or.inr (by simpa using hcontext)
    next => cases h

theorem ofSelector?_isSome {s : String} : (ofSelector? s).isSome = true ↔ IsSelector s := by
  constructor
  · intro h
    rcases ofSelector?_cases h with rfl | rfl | rfl | ⟨kind, name, rfl, hparts⟩
    · exact .method
    · exact .path
    · exact .host
    · rcases ofParts?_isSome hparts with ⟨rfl | rfl, hname⟩ | ⟨rfl, hname⟩
      · obtain ⟨htoken, hlength⟩ := HeaderName.ofText?_isSome.mp hname
        exact .header htoken hlength
      · obtain ⟨htoken, hlength⟩ := HeaderName.ofText?_isSome.mp hname
        exact .headers htoken hlength
      · exact .context hname
  · intro h
    cases h with
    | method | path | host => rfl
    | header htoken hlength =>
      rw [ofSelector?_header, Option.isSome_map]
      exact HeaderName.ofText?_isSome.mpr ⟨htoken, hlength⟩
    | headers htoken hlength =>
      rw [ofSelector?_headers, Option.isSome_map]
      exact HeaderName.ofText?_isSome.mpr ⟨htoken, hlength⟩
    | context hname => rw [ofSelector?_context hname]; rfl

def Named : Field → Prop
  | .context name => name ≠ ""
  | _ => True

theorem named_of_ofSelector? {s : String} {field : Field} (h : ofSelector? s = some field) :
    field.Named := by
  have hsome : (ofSelector? s).isSome = true := Option.isSome_iff_exists.mpr ⟨field, h⟩
  cases ofSelector?_isSome.mp hsome with
  | method | path | host =>
    obtain rfl := Option.some.inj h
    trivial
  | header =>
    rw [ofSelector?_header] at h
    obtain ⟨header, _, rfl⟩ := Option.map_eq_some_iff.mp h
    trivial
  | headers =>
    rw [ofSelector?_headers] at h
    obtain ⟨header, _, rfl⟩ := Option.map_eq_some_iff.mp h
    trivial
  | context hname =>
    rw [ofSelector?_context hname] at h
    obtain rfl := Option.some.inj h
    exact hname

theorem ofSelector?_text {field : Field} (h : field.Named) :
    ofSelector? field.text = some field := by
  cases field with
  | method | path | host => rfl
  | header name =>
    rw [text, ofSelector?_header, HeaderName.ofText?_text]
    rfl
  | context name => exact ofSelector?_context h

end Field
end ApiGateway
