import ApiGateway.Mount.Path
import ApiGateway.Proofs.Http.Casing
import Mathlib.Data.String.Basic

/-! Mount paths. What is stripped off a path is a first part of it that differs from the mount path
in the case of ASCII letters alone, so that it is also as long in bytes. -/

namespace ApiGateway

theorem utf8Size_toLower (c : Char) : c.toLower.utf8Size = c.utf8Size := by
  induction c using char_cases with
  | ascii n => revert n; decide
  | other c hupper => rw [toLower_eq_self hupper]

theorem utf8Len_map_toLower (chars : List Char) :
    String.utf8Len (chars.map Char.toLower) = String.utf8Len chars := by
  induction chars with
  | nil => rfl
  | cons c rest ih =>
    rw [List.map_cons, String.utf8Len_cons, String.utf8Len_cons, ih, utf8Size_toLower]

namespace Text

theorem utf8ByteSize_of_eqIgnoreCase {a b : String} (h : eqIgnoreCase a b = true) :
    a.utf8ByteSize = b.utf8ByteSize := by
  have hlen : ∀ s : String, s.utf8ByteSize = String.utf8Len (s.toList.map Char.toLower) := by
    intro s
    rw [utf8Len_map_toLower, ← String.utf8ByteSize_ofList, String.ofList_toList]
  rw [hlen a, hlen b, eqIgnoreCase_iff.mp h]

end Text

theorem dropStart?_eq_some {start chars rest : List Char} :
    dropStart? start chars = some rest ↔
      ∃ head, chars = head ++ rest ∧ head.map Char.toLower = start.map Char.toLower := by
  induction start generalizing chars with
  | nil =>
    constructor
    · intro h
      exact ⟨[], Option.some.inj h, rfl⟩
    · rintro ⟨head, rfl, hhead⟩
      rw [List.map_eq_nil_iff.mp hhead]
      rfl
  | cons s start ih =>
    cases chars with
    | nil =>
      refine iff_of_false nofun ?_
      rintro ⟨head, hchars, hhead⟩
      rw [(List.append_eq_nil_iff.mp hchars.symm).1] at hhead
      cases hhead
    | cons c chars =>
      rw [dropStart?]
      split
      next hsame =>
        rw [ih]
        constructor
        · rintro ⟨head, rfl, hhead⟩
          exact ⟨c :: head, rfl, congrArg₂ List.cons hsame.symm hhead⟩
        · rintro ⟨head, hchars, hhead⟩
          cases head with
          | nil => cases hhead
          | cons c' head =>
            obtain ⟨-, rfl⟩ := List.cons.inj hchars
            exact ⟨head, rfl, (List.cons.inj hhead).2⟩
      next hother =>
        refine iff_of_false nofun ?_
        rintro ⟨head, hchars, hhead⟩
        cases head with
        | nil => cases hhead
        | cons c' head =>
          obtain ⟨rfl, -⟩ := List.cons.inj hchars
          exact hother (List.cons.inj hhead).1.symm

namespace MountPath

theorem strip?_eq_some {m : MountPath} {path rest : String} :
    m.strip? path = some rest ↔
      ∃ head, path = head ++ rest ∧ Text.eqIgnoreCase head (String.ofList m.chars) = true ∧
        (rest = "" ∨ rest.toList.head? = some '/') := by
  have hsplit : (∃ head, path = head ++ rest ∧
      Text.eqIgnoreCase head (String.ofList m.chars) = true) ↔
        dropStart? m.chars path.toList = some rest.toList := by
    rw [dropStart?_eq_some]
    constructor
    · rintro ⟨head, rfl, hhead⟩
      refine ⟨head.toList, String.toList_append, ?_⟩
      rw [Text.eqIgnoreCase_iff.mp hhead, String.toList_ofList]
    · rintro ⟨head, hpath, hhead⟩
      refine ⟨String.ofList head, ?_, ?_⟩
      · rw [← String.toList_inj, hpath, String.toList_append, String.toList_ofList]
      · rw [Text.eqIgnoreCase_iff, String.toList_ofList, String.toList_ofList, hhead]
  constructor
  · intro h
    have hrest : dropStart? m.chars path.toList = some rest.toList ∧
        (rest = "" ∨ rest.toList.head? = some '/') := by
      unfold strip? at h
      split at h
      next hdrop =>
        obtain rfl := Option.some.inj h
        exact ⟨hdrop, Or.inl rfl⟩
      next after hdrop =>
        obtain rfl := Option.some.inj h
        rw [String.toList_ofList]
        exact ⟨hdrop, Or.inr rfl⟩
      next => cases h
    obtain ⟨head, hpath, hhead⟩ := hsplit.mpr hrest.1
    exact ⟨head, hpath, hhead, hrest.2⟩
  · rintro ⟨head, hpath, hhead, hslash⟩
    have hdrop := hsplit.mp ⟨head, hpath, hhead⟩
    rw [strip?, hdrop]
    rcases hslash with rfl | hslash
    · rfl
    · obtain ⟨after, hafter⟩ := List.head?_eq_some_iff.mp hslash
      rw [hafter]
      exact congrArg some (by rw [← hafter, String.ofList_toList])

theorem strip?_of_root {path : String} (h : path.toList.head? = some '/') :
    (ofText "/").strip? path = some path :=
  strip?_eq_some.mpr ⟨"", (String.empty_append).symm, by decide, Or.inr h⟩

end MountPath
end ApiGateway
