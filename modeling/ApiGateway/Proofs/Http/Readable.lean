import ApiGateway.Http.Token
import Mathlib.Data.List.Basic

/-! Header values that can be read. A value that is the encoding of a text can be read back if the
text is ASCII, and no other value can. -/

namespace ApiGateway
namespace Text

def IsAscii (text : String) : Prop := ∀ c ∈ text.toList, c.toNat < 0x80

instance (text : String) : Decidable (IsAscii text) :=
  List.decidableBAll (fun c : Char => c.toNat < 0x80) text.toList

variable {text : String} {bytes : Bytes} {c : Char}

theorem utf8EncodeChar_of_lt (h : c.toNat < 0x80) :
    String.utf8EncodeChar c = [UInt8.ofNat c.toNat] := by
  have hval : c.val.toNat ≤ 0x7f := Nat.le_of_lt_succ h
  simp only [String.utf8EncodeChar, hval, if_true]
  rfl

theorem continuation_mem_utf8EncodeChar (h : 0x80 ≤ c.toNat) :
    UInt8.ofNat (c.toNat % 0x40 + 0x80) ∈ String.utf8EncodeChar c := by
  have hval : ¬ c.val.toNat ≤ 0x7f := Nat.not_le.mpr h
  simp only [String.utf8EncodeChar, hval, if_false]
  split
  · exact List.mem_cons_of_mem _ List.mem_cons_self
  split
  · exact List.mem_cons_of_mem _ (List.mem_cons_of_mem _ List.mem_cons_self)
  · exact List.mem_cons_of_mem _ (List.mem_cons_of_mem _ (List.mem_cons_of_mem _
      List.mem_cons_self))

theorem encodeUtf8_of_isAscii (h : IsAscii text) :
    encodeUtf8 text = text.toList.map fun c => UInt8.ofNat c.toNat := by
  rw [encodeUtf8, List.flatMap_congr fun c hc => utf8EncodeChar_of_lt (h c hc)]
  exact List.map_eq_flatMap.symm

theorem isAscii_iff : IsAscii text ↔ ∀ byte ∈ encodeUtf8 text, byte.toNat < 0x80 := by
  constructor
  · intro h byte hbyte
    rw [encodeUtf8_of_isAscii h] at hbyte
    obtain ⟨c, hc, rfl⟩ := List.mem_map.mp hbyte
    have hlt := h c hc
    rw [UInt8.toNat_ofNat']
    omega
  · intro h c hc
    by_contra hge
    have hbyte := h _ (List.mem_flatMap.mpr
      ⟨c, hc, continuation_mem_utf8EncodeChar (Nat.not_lt.mp hge)⟩)
    rw [UInt8.toNat_ofNat'] at hbyte
    omega

theorem isValidUTF8_iff : bytes.toByteArray.IsValidUTF8 ↔ ∃ text, encodeUtf8 text = bytes := by
  constructor
  · rintro ⟨chars, hchars⟩
    refine ⟨String.ofList chars, ?_⟩
    rw [encodeUtf8, String.toList_ofList]
    exact (List.toByteArray_inj.mp hchars).symm
  · rintro ⟨text, rfl⟩
    exact ⟨text.toList, rfl⟩

theorem toNat_ofNat_of_lt {n : Nat} (h : n < 0x80) : (Char.ofNat n).toNat = n := by
  rw [Char.ofNat, dif_pos (Or.inl (by omega))]
  rfl

theorem encodeUtf8_ofList_map (h : ∀ byte ∈ bytes, byte.toNat < 0x80) :
    encodeUtf8 (String.ofList (bytes.map fun byte => Char.ofNat byte.toNat)) = bytes ∧
      IsAscii (String.ofList (bytes.map fun byte => Char.ofNat byte.toNat)) := by
  have hascii : IsAscii (String.ofList (bytes.map fun byte => Char.ofNat byte.toNat)) := by
    intro c hc
    rw [String.toList_ofList] at hc
    obtain ⟨byte, hbyte, rfl⟩ := List.mem_map.mp hc
    rw [toNat_ofNat_of_lt (h byte hbyte)]
    exact h byte hbyte
  refine ⟨?_, hascii⟩
  rw [encodeUtf8_of_isAscii hascii, String.toList_ofList, List.map_map]
  conv_rhs => rw [← List.map_id bytes]
  refine List.map_congr_left fun byte hbyte => ?_
  rw [Function.comp_apply, toNat_ofNat_of_lt (h byte hbyte), UInt8.ofNat_toNat, id]

theorem ofList_map_encodeUtf8 (h : IsAscii text) :
    String.ofList ((encodeUtf8 text).map fun byte => Char.ofNat byte.toNat) = text := by
  rw [encodeUtf8_of_isAscii h, List.map_map, ← String.toList_inj, String.toList_ofList]
  conv_rhs => rw [← List.map_id text.toList]
  refine List.map_congr_left fun c hc => ?_
  have hlt := h c hc
  rw [Function.comp_apply, UInt8.toNat_ofNat', Nat.mod_eq_of_lt (by omega), Char.ofNat_toNat, id]

end Text

namespace HeaderValue

variable {value : HeaderValue} {text : String}

theorem all_readable_iff :
    value.bytes.all (fun byte => byte.toNat < 0x7F) = true ↔
      ∀ byte ∈ value.bytes, byte.toNat < 0x80 := by
  have hvalue := List.all_eq_true.mp value.isValue
  simp only [isHeaderByte, Bool.or_eq_true, beq_iff_eq, Bool.and_eq_true, decide_eq_true_eq]
    at hvalue
  simp only [List.all_eq_true, decide_eq_true_eq]
  refine forall₂_congr fun byte hbyte => ?_
  have hbyte := hvalue byte hbyte
  omega

theorem text?_eq_some :
    value.text? = some text ↔ Text.encodeUtf8 text = value.bytes ∧ Text.IsAscii text := by
  rw [text?]
  constructor
  · intro h
    split at h
    next hreadable =>
      obtain rfl := Option.some.inj h
      exact Text.encodeUtf8_ofList_map (all_readable_iff.mp hreadable)
    next => cases h
  · rintro ⟨hbytes, hascii⟩
    rw [if_pos]
    · rw [← hbytes, Text.ofList_map_encodeUtf8 hascii]
    · rw [all_readable_iff, ← hbytes]
      exact Text.isAscii_iff.mp hascii

theorem text?_eq_none : value.text? = none ↔ ¬ ∀ byte ∈ value.bytes, byte.toNat < 0x80 := by
  rw [text?, ← all_readable_iff, ite_eq_right_iff]
  exact ⟨fun h hreadable => Option.some_ne_none _ (h hreadable),
    fun h hreadable => absurd hreadable h⟩

theorem text?_of_not_isAscii (hbytes : Text.encodeUtf8 text = value.bytes)
    (h : ¬ Text.IsAscii text) : value.text? = none := by
  rw [text?_eq_none, ← hbytes]
  exact fun hall => h (Text.isAscii_iff.mpr hall)

theorem text?_of_not_isValidUTF8 (h : ¬ value.bytes.toByteArray.IsValidUTF8) :
    value.text? = none := by
  rw [text?_eq_none]
  exact fun hall => h (Text.isValidUTF8_iff.mpr ⟨_, (Text.encodeUtf8_ofList_map hall).1⟩)

end HeaderValue
end ApiGateway
