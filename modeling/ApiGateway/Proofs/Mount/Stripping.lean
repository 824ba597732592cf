import ApiGateway.Mount.Endpoint
import ApiGateway.Proofs.Mount.Path
import ApiGateway.Proofs.Text.Encoding
import Mathlib.Data.List.DropRight

/-! Stripping as a law on bytes, and of one mount path after another. The bytes taken off are those
of the mount path up to the case of ASCII letters, and never part of a character; what two mount
paths take off in turn the two written one behind the other take off at once. -/

namespace ApiGateway

def slashes (n : Nat) : String := String.ofList (List.replicate n '/')

structure IsTrimmed (path trimmed : String) : Prop where
  exists_slashes : ∃ n, path = trimmed ++ slashes n
  getLast?_ne : trimmed.toList.getLast? ≠ some '/'

def IsRemainder (rest : String) : Prop := rest = "" ∨ rest.toList.head? = some '/'

variable {path trimmed p q s rest : String} {m inner : MountPath} {tail : Text.Bytes}

namespace IsRemainder

theorem iff_lower :
    IsRemainder rest ↔
      rest.toList.map Char.toLower = [] ∨ (rest.toList.map Char.toLower).head? = some '/' := by
  have hslash : ∀ c : Char, c.toLower = '/' ↔ c = '/' := fun c => toLower_eq_iff rfl
  simp only [IsRemainder, List.map_eq_nil_iff, String.toList_eq_nil_iff, List.head?_map,
    Option.map_eq_some_iff, hslash, exists_eq_right]

theorem of_eqIgnoreCase (hp : IsRemainder p) (h : Text.eqIgnoreCase q p = true) :
    IsRemainder q := by
  rw [iff_lower, Text.eqIgnoreCase_iff.mp h]
  exact iff_lower.mp hp

theorem append (hp : IsRemainder p) (hq : IsRemainder q) : IsRemainder (p ++ q) := by
  rcases hp with rfl | hp
  · rwa [String.empty_append]
  · right
    rw [String.toList_append, List.head?_append, hp, Option.some_or]

theorem of_append (h : IsRemainder (p ++ q)) : IsRemainder p := by
  rw [IsRemainder, ← String.toList_eq_nil_iff, String.toList_append] at h
  rw [IsRemainder, ← String.toList_eq_nil_iff]
  cases hchars : p.toList with
  | nil => exact Or.inl rfl
  | cons c chars =>
    right
    rw [hchars, List.cons_append] at h
    exact h.resolve_left (List.cons_ne_nil _ _)

end IsRemainder

/-! ## Trailing slashes -/

namespace MountPath

theorem ofText_append_slashes (path : String) (n : Nat) :
    ofText (path ++ slashes n) = ofText path := by
  have hall : ∀ c ∈ List.replicate n '/', decide (c = '/') = true :=
    fun c hc => decide_eq_true (List.eq_of_mem_replicate hc)
  rw [ofText, ofText, slashes, String.toList_append, String.toList_ofList, List.reverse_append,
    List.reverse_replicate, List.dropWhile_append_of_pos hall]

theorem ofText_of_getLast?_ne (h : path.toList.getLast? ≠ some '/') :
    ofText path = ⟨path.toList⟩ := by
  refine congrArg MountPath.mk (List.rdropWhile_eq_self_iff.mpr fun hne hlast => h ?_)
  rw [List.getLast?_eq_some_getLast hne, of_decide_eq_true hlast]

theorem isTrimmed_ofText (path : String) :
    IsTrimmed path (String.ofList (ofText path).chars) where
  exists_slashes := by
    have hslashes : path.toList.rtakeWhile (fun c => c = '/') =
        List.replicate (path.toList.rtakeWhile fun c => c = '/').length '/' := by
      refine List.eq_replicate_of_mem fun c hc => ?_
      have hslash := List.mem_rtakeWhile_imp hc
      exact of_decide_eq_true hslash
    refine ⟨(path.toList.rtakeWhile fun c => c = '/').length, ?_⟩
    rw [slashes, ← hslashes, ← String.ofList_append, ← String.toList_inj, String.toList_ofList]
    exact List.rdropWhile_append_rtakeWhile.symm
  getLast?_ne := by
    rw [String.toList_ofList]
    intro hlast
    have hne := List.ne_nil_of_mem (List.mem_of_getLast? hlast)
    have hslash : (ofText path).chars.getLast hne = '/' := by
      rw [← Option.some.injEq, ← List.getLast?_eq_some_getLast, hlast]
    exact List.rdropWhile_last_not _ _ hne (decide_eq_true hslash)

end MountPath

namespace IsTrimmed

theorem ofText_eq (h : IsTrimmed path trimmed) : MountPath.ofText path = ⟨trimmed.toList⟩ := by
  obtain ⟨n, rfl⟩ := h.exists_slashes
  rw [MountPath.ofText_append_slashes, MountPath.ofText_of_getLast?_ne h.getLast?_ne]

theorem existsUnique (path : String) : ∃! trimmed, IsTrimmed path trimmed := by
  refine ⟨_, MountPath.isTrimmed_ofText path, fun other hother => ?_⟩
  rw [hother.ofText_eq, String.ofList_toList]

theorem append (hp : p.toList.getLast? ≠ some '/') (hq : IsTrimmed q rest) :
    IsTrimmed (p ++ q) (p ++ rest) := by
  obtain ⟨⟨n, rfl⟩, hlast⟩ := hq
  refine ⟨⟨n, (String.append_assoc ..).symm⟩, ?_⟩
  rw [String.toList_append, List.getLast?_append]
  cases hrest : rest.toList.getLast? with
  | none => exact hp
  | some c => rwa [hrest] at hlast

end IsTrimmed

/-! ## Bytes -/

namespace MountPath

theorem isRemainder_iff_bytes :
    IsRemainder rest ↔
      Text.encodeUtf8 rest = [] ∨ (Text.encodeUtf8 rest).head? = some 0x2F := by
  have hempty : Text.encodeUtf8 rest = [] ↔ rest = "" := Text.encodeUtf8_inj (b := "")
  rw [IsRemainder, hempty]
  exact or_congr_right (Text.head?_encodeUtf8_eq (d := '/') (by decide)).symm

theorem map_encodeUtf8_strip?_eq_some :
    (m.strip? s).map Text.encodeUtf8 = some tail ↔
      ∃ head, Text.encodeUtf8 s = head ++ tail ∧
        head.map Text.lowerByte = (Text.encodeUtf8 (String.ofList m.chars)).map Text.lowerByte ∧
        (tail = [] ∨ tail.head? = some 0x2F) := by
  rw [Option.map_eq_some_iff]
  constructor
  · rintro ⟨rest, hrest, rfl⟩
    obtain ⟨head, rfl, hhead, hslash⟩ := strip?_eq_some.mp hrest
    exact ⟨Text.encodeUtf8 head, Text.encodeUtf8_append head rest,
      Text.eqIgnoreCase_iff_bytes.mp hhead, isRemainder_iff_bytes.mp hslash⟩
  · rintro ⟨head, hbytes, hhead, htail⟩
    have hascii : ∀ byte, tail.head? = some byte → byte.toNat < 0x80 := by
      intro byte hbyte
      rcases htail with rfl | hslash
      · cases hbyte
      · obtain rfl := Option.some.inj (hslash.symm.trans hbyte)
        decide
    -- so the bytes are cut where a character begins
    obtain ⟨front, back, rfl, rfl, rfl⟩ :=
      Text.exists_append_of_isValid (Text.isValid_of_lt hbytes hascii) hbytes
    refine ⟨back, strip?_eq_some.mpr ⟨front, rfl, ?_, isRemainder_iff_bytes.mpr htail⟩, rfl⟩
    exact Text.eqIgnoreCase_iff_bytes.mpr hhead

theorem isValid_of_strip? (h : m.strip? s = some rest) :
    (⟨(String.ofList m.chars).utf8ByteSize⟩ : String.Pos.Raw).IsValid s := by
  obtain ⟨head, rfl, hhead, -⟩ := strip?_eq_some.mp h
  rw [← Text.utf8ByteSize_of_eqIgnoreCase hhead]
  exact (String.Pos.Raw.isValid_rawEndPos).append_right rest

/-! ## Nesting -/

theorem strip?_append (outer : MountPath) (hinner : IsRemainder (String.ofList inner.chars)) :
    strip? ⟨outer.chars ++ inner.chars⟩ s = (outer.strip? s).bind inner.strip? := by
  ext rest
  rw [Option.bind_eq_some_iff]
  constructor
  · intro h
    obtain ⟨head, rfl, hhead, hrest⟩ := strip?_eq_some.mp h
    rw [Text.eqIgnoreCase_iff, String.toList_ofList, List.map_append] at hhead
    obtain ⟨front, back, hchars, hfront, hback⟩ := List.map_eq_append_iff.mp hhead
    have hfront : Text.eqIgnoreCase (String.ofList front) (String.ofList outer.chars) = true := by
      rw [Text.eqIgnoreCase_iff, String.toList_ofList, String.toList_ofList, hfront]
    have hback : Text.eqIgnoreCase (String.ofList back) (String.ofList inner.chars) = true := by
      rw [Text.eqIgnoreCase_iff, String.toList_ofList, String.toList_ofList, hback]
    have hbetween : IsRemainder (String.ofList back ++ rest) :=
      (hinner.of_eqIgnoreCase hback).append hrest
    refine ⟨String.ofList back ++ rest, strip?_eq_some.mpr ⟨_, ?_, hfront, hbetween⟩,
      strip?_eq_some.mpr ⟨_, rfl, hback, hrest⟩⟩
    rw [← String.append_assoc, ← String.ofList_append, ← hchars, String.ofList_toList]
  · rintro ⟨between, houter, h⟩
    obtain ⟨front, rfl, hfront, -⟩ := strip?_eq_some.mp houter
    obtain ⟨back, rfl, hback, hrest⟩ := strip?_eq_some.mp h
    refine strip?_eq_some.mpr ⟨front ++ back, (String.append_assoc ..).symm, ?_, hrest⟩
    rw [Text.eqIgnoreCase_iff] at hfront hback ⊢
    rw [String.toList_append, List.map_append, hfront, hback, String.toList_ofList,
      String.toList_ofList, String.toList_ofList, List.map_append]

theorem strip?_ofText_append (hp : p.toList.getLast? ≠ some '/') (hq : IsRemainder q) :
    (ofText (p ++ q)).strip? s = ((ofText p).strip? s).bind (ofText q).strip? := by
  have htrimmed := isTrimmed_ofText q
  obtain ⟨n, hslashes⟩ := htrimmed.exists_slashes
  have hinner : IsRemainder (String.ofList (ofText q).chars) := (hslashes ▸ hq).of_append
  rw [(htrimmed.append hp).ofText_eq, ofText_of_getLast?_ne hp, String.toList_append,
    String.toList_ofList]
  exact strip?_append ⟨p.toList⟩ hinner

end MountPath

namespace Endpoint

variable {host : Option String} {r : Request}

theorem admitsPath_of_append (hp : p.toList.getLast? ≠ some '/') (hq : IsRemainder q)
    (h : admitsPath ⟨p ++ q, host⟩ r = true) (outer : Option String) :
    admitsPath ⟨p, outer⟩ r = true := by
  rw [admitsPath, mountPath, MountPath.strip?_ofText_append hp hq] at h
  exact Option.isSome_of_isSome_bind h

end Endpoint

namespace MountPath

/-- Every configured path has just one form without trailing slashes, and only that form counts.
What a mount path leaves of a path is what follows a first part of it that is this form up to the
case of ASCII letters, as long as nothing or a slash follows. Read in bytes this is the same law: any
first part of the bytes will do, and it always ends where a character does. A path `p ++ q` in two
parts, the second from a slash on, is stripped as `p` is and then `q`, so that a request under the
nested mount is also under the outer one. -/
theorem strip?_exact :
    (∀ path, ∃! p, IsTrimmed path p) ∧
    (∀ path p s, IsTrimmed path p →
      (∀ rest, (ofText path).strip? s = some rest ↔
        ∃ head, s = head ++ rest ∧ Text.eqIgnoreCase head p = true ∧ IsRemainder rest) ∧
      (∀ tail, ((ofText path).strip? s).map Text.encodeUtf8 = some tail ↔
        ∃ head, Text.encodeUtf8 s = head ++ tail ∧
          head.map Text.lowerByte = (Text.encodeUtf8 p).map Text.lowerByte ∧
          (tail = [] ∨ tail.head? = some 0x2F)) ∧
      (¬ (⟨p.utf8ByteSize⟩ : String.Pos.Raw).IsValid s → (ofText path).strip? s = none)) ∧
    (∀ path n s, (ofText (path ++ slashes n)).strip? s = (ofText path).strip? s) ∧
    ∀ p q : String, p.toList.getLast? ≠ some '/' → IsRemainder q →
      (∀ s, (ofText (p ++ q)).strip? s = ((ofText p).strip? s).bind (ofText q).strip?) ∧
      ∀ (inner outer : Option String) (r : Request),
        Endpoint.admitsPath ⟨p ++ q, inner⟩ r = true → Endpoint.admitsPath ⟨p, outer⟩ r = true := by
  refine ⟨IsTrimmed.existsUnique, fun path p s h => ?_, fun path n s => ?_, fun p q hp hq => ?_⟩
  · have hp : String.ofList (ofText path).chars = p := by
      rw [h.ofText_eq, String.ofList_toList]
    refine ⟨fun rest => ?_, fun tail => ?_, fun hinside => ?_⟩
    · rw [strip?_eq_some, hp]
      rfl
    · rw [map_encodeUtf8_strip?_eq_some, hp]
    · rw [Option.eq_none_iff_forall_ne_some]
      exact fun rest hrest => hinside (hp ▸ isValid_of_strip? hrest)
  · rw [ofText_append_slashes]
  · exact ⟨fun s => strip?_ofText_append hp hq,
      fun _ outer _ hadmits => Endpoint.admitsPath_of_append hp hq hadmits outer⟩

/-- The third byte of the path `/aé` is the first half of a character. -/
theorem strip?_exact_multibyte :
    IsTrimmed "/ab//" "/ab" ∧ (ofText "/ab//").strip? "/aé" = none ∧
      IsTrimmed "/Café//" "/Café" ∧
      (ofText "/Café//").strip? "/cAFé/v1/x" = some "/v1/x" ∧
      (ofText "/Café/v1/").strip? "/cAFé/v1/x" = (ofText "/v1/").strip? "/v1/x" := by
  obtain ⟨-, hexact, -, hnested⟩ := strip?_exact
  have hplain : IsTrimmed "/ab//" "/ab" := ⟨⟨2, rfl⟩, by decide⟩
  have haccent : IsTrimmed "/Café//" "/Café" := ⟨⟨2, rfl⟩, by decide⟩
  have hlast : "/Café".toList.getLast? ≠ some '/' := by decide
  have hstrip : (ofText "/Café//").strip? "/cAFé/v1/x" = some "/v1/x" :=
    ((hexact _ _ _ haccent).1 _).mpr ⟨"/cAFé", rfl, by decide, Or.inr rfl⟩
  refine ⟨hplain, (hexact _ _ _ hplain).2.2 (by decide), haccent, hstrip, ?_⟩
  have hboth := (hnested "/Café" "/v1/" hlast (Or.inr rfl)).1 "/cAFé/v1/x"
  rw [haccent.ofText_eq] at hstrip
  rw [ofText_of_getLast?_ne hlast, hstrip] at hboth
  exact hboth

end MountPath
end ApiGateway
