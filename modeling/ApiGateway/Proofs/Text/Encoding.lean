import ApiGateway.Proofs.Http.Casing
import ApiGateway.Proofs.Http.Readable
import Mathlib.Tactic.SplitIfs

/-! Texts as bytes. Folding the case of ASCII letters byte by byte is folding it character by
character, before an ASCII byte a text can be cut in two without breaking a character, and texts
are in the same order as their bytes. -/

namespace ApiGateway.Text

variable {a b text : String} {c d : Char} {byte : UInt8} {head tail : Bytes}

theorem encodeUtf8_append (a b : String) : encodeUtf8 (a ++ b) = encodeUtf8 a ++ encodeUtf8 b := by
  rw [encodeUtf8, String.toList_append, List.flatMap_append]
  rfl

theorem toByteArray_encodeUtf8 (text : String) :
    (encodeUtf8 text).toByteArray = text.toByteArray := by
  conv_rhs => rw [← String.ofList_toList (s := text)]
  rfl

theorem encodeUtf8_inj : encodeUtf8 a = encodeUtf8 b ↔ a = b := by
  rw [← List.toByteArray_inj, toByteArray_encodeUtf8, toByteArray_encodeUtf8,
    String.toByteArray_inj]

theorem length_encodeUtf8 (text : String) : (encodeUtf8 text).length = text.utf8ByteSize := by
  rw [← List.size_toByteArray, toByteArray_encodeUtf8]
  rfl

/-! ## Letter case -/

def lowerByte (byte : UInt8) : UInt8 :=
  if 0x41 ≤ byte.toNat && byte.toNat ≤ 0x5A then byte + 0x20 else byte

theorem lowerByte_of_le (h : 0x80 ≤ byte.toNat) : lowerByte byte = byte := by
  apply if_neg
  rw [Bool.and_eq_true, decide_eq_true_eq, decide_eq_true_eq]
  omega

theorem le_of_mem_utf8EncodeChar (h : 0x80 ≤ c.toNat) (hbyte : byte ∈ String.utf8EncodeChar c) :
    0x80 ≤ byte.toNat := by
  have hval : ¬ c.val.toNat ≤ 0x7f := Nat.not_le.mpr h
  simp only [String.utf8EncodeChar, hval, if_false] at hbyte
  split_ifs at hbyte
  all_goals
    simp only [List.mem_cons, List.not_mem_nil, or_false] at hbyte
    rcases hbyte with rfl | rfl | rfl | rfl <;> rw [UInt8.toNat_ofNat'] <;> omega

theorem map_lowerByte_utf8EncodeChar (c : Char) :
    (String.utf8EncodeChar c).map lowerByte = String.utf8EncodeChar c.toLower := by
  rcases Nat.lt_or_ge c.toNat 0x80 with hlt | hge
  · have hall : ∀ n : Fin 128,
        lowerByte (UInt8.ofNat n) = UInt8.ofNat (Char.ofNat n).toLower.toNat := by decide
    have hc := hall ⟨c.toNat, hlt⟩
    rw [Char.ofNat_toNat] at hc
    rw [utf8EncodeChar_of_lt hlt, utf8EncodeChar_of_lt (toNat_toLower_lt hlt), List.map_singleton,
      hc]
  · have hself : ∀ byte ∈ String.utf8EncodeChar c, lowerByte byte = byte :=
      fun byte hbyte => lowerByte_of_le (le_of_mem_utf8EncodeChar hge hbyte)
    rw [toLower_of_le hge, List.map_congr_left hself, List.map_id']

theorem map_lowerByte_encodeUtf8 (text : String) :
    (encodeUtf8 text).map lowerByte =
      encodeUtf8 (String.ofList (text.toList.map Char.toLower)) := by
  simp only [encodeUtf8, String.toList_ofList, List.map_flatMap, List.flatMap_map,
    map_lowerByte_utf8EncodeChar]

theorem eqIgnoreCase_iff_bytes :
    eqIgnoreCase a b = true ↔ (encodeUtf8 a).map lowerByte = (encodeUtf8 b).map lowerByte := by
  rw [map_lowerByte_encodeUtf8, map_lowerByte_encodeUtf8, encodeUtf8_inj, String.ofList_inj,
    eqIgnoreCase_iff]

theorem head?_encodeUtf8_eq (hd : d.toNat < 0x80) :
    (encodeUtf8 text).head? = some (UInt8.ofNat d.toNat) ↔ text.toList.head? = some d := by
  rw [encodeUtf8]
  cases text.toList with
  | nil => exact iff_of_false (Option.some_ne_none _).symm (Option.some_ne_none _).symm
  | cons c rest =>
    rw [List.flatMap_cons, List.head?_cons, Option.some.injEq]
    rcases Nat.lt_or_ge c.toNat 0x80 with hlt | hge
    · rw [utf8EncodeChar_of_lt hlt, List.singleton_append, List.head?_cons, Option.some.injEq,
        ← UInt8.toNat_inj, UInt8.toNat_ofNat', UInt8.toNat_ofNat', ← Char.toNat_inj]
      omega
    · refine iff_of_false ?_ (by rintro rfl; omega)
      intro hhead
      obtain ⟨byte, more, hbytes⟩ := List.exists_cons_of_ne_nil (@String.utf8EncodeChar_ne_nil c)
      have hle : 0x80 ≤ byte.toNat :=
        le_of_mem_utf8EncodeChar hge (hbytes ▸ List.mem_cons_self)
      rw [hbytes, List.cons_append, List.head?_cons, Option.some.injEq] at hhead
      rw [hhead, UInt8.toNat_ofNat'] at hle
      omega

/-! ## Cuts -/

theorem exists_append_of_isValid (hvalid : (⟨head.length⟩ : String.Pos.Raw).IsValid text)
    (h : encodeUtf8 text = head ++ tail) :
    ∃ front back, text = front ++ back ∧ encodeUtf8 front = head ∧ encodeUtf8 back = tail := by
  obtain ⟨front, back, rfl, hfront⟩ := String.Pos.Raw.isValid_iff_exists_append.mp hvalid
  rw [encodeUtf8_append] at h
  have hlength : (encodeUtf8 front).length = head.length := by
    rw [length_encodeUtf8]
    exact (congrArg String.Pos.Raw.byteIdx hfront).symm
  obtain ⟨hhead, htail⟩ := List.append_inj h hlength
  exact ⟨front, back, rfl, hhead, htail⟩

theorem isValid_of_lt (h : encodeUtf8 text = head ++ tail)
    (htail : ∀ byte, tail.head? = some byte → byte.toNat < 0x80) :
    (⟨head.length⟩ : String.Pos.Raw).IsValid text := by
  -- no character of several bytes goes on with an ASCII byte
  have hfirst : ∀ n : Fin 128, (UInt8.ofNat n).IsUTF8FirstByte := by decide
  have hbytes : text.toByteArray = (head ++ tail).toByteArray := by
    rw [← toByteArray_encodeUtf8, h]
  rw [String.Pos.Raw.isValid_iff_isUTF8FirstByte]
  cases tail with
  | nil =>
    left
    rw [List.append_nil] at h
    rw [String.Pos.Raw.ext_iff, String.byteIdx_rawEndPos, ← length_encodeUtf8, h]
  | cons byte tail =>
    right
    have hlt : head.length < text.utf8ByteSize := by
      rw [← length_encodeUtf8, h, List.length_append, List.length_cons]
      omega
    refine ⟨hlt, ?_⟩
    have hbyte : text.getUTF8Byte ⟨head.length⟩ hlt = byte := by
      simp only [String.getUTF8Byte, hbytes, List.getElem_toByteArray, List.getElem_append_right,
        Nat.le_refl, Nat.sub_self, List.getElem_cons_zero]
    have hc := hfirst ⟨byte.toNat, htail byte rfl⟩
    rw [UInt8.ofNat_toNat] at hc
    rwa [hbyte]

/-! ## Order -/

theorem utf8EncodeChar_append_lt (h : c < d) (x y : Bytes) :
    String.utf8EncodeChar c ++ x < String.utf8EncodeChar d ++ y := by
  -- a greater character has more bytes, which shows in the first, or as many and greater ones
  have hlt : c.val.toNat < d.val.toNat := h
  have hbound : d.val.toNat < 0x110000 := by
    rcases d.valid with hd | ⟨-, hd⟩
    · exact Nat.lt_trans hd (by decide)
    · exact hd
  simp only [String.utf8EncodeChar]
  split_ifs
  all_goals
    simp only [List.cons_append, List.nil_append, List.cons_lt_cons_iff, UInt8.lt_iff_toNat_lt,
      ← UInt8.toNat_inj, UInt8.toNat_ofNat']
    simp (disch := omega) only [Nat.mod_eq_of_lt]
    omega

theorem flatMap_utf8EncodeChar_lt {cs ds : List Char} (h : cs < ds) :
    cs.flatMap String.utf8EncodeChar < ds.flatMap String.utf8EncodeChar := by
  induction h with
  | @nil d ds =>
    obtain ⟨byte, more, hbytes⟩ := List.exists_cons_of_ne_nil (@String.utf8EncodeChar_ne_nil d)
    rw [List.flatMap_nil, List.flatMap_cons, hbytes]
    exact List.nil_lt_cons ..
  | rel hlt => exact utf8EncodeChar_append_lt hlt _ _
  | cons _ ih =>
    rw [List.flatMap_cons, List.flatMap_cons]
    exact List.append_left_lt ih

theorem encodeUtf8_lt_iff : encodeUtf8 a < encodeUtf8 b ↔ a < b := by
  have hmono {a b : String} (h : a < b) : encodeUtf8 a < encodeUtf8 b :=
    flatMap_utf8EncodeChar_lt h
  refine ⟨fun h => ?_, hmono⟩
  rcases Std.lt_trichotomy a b with hlt | rfl | hgt
  · exact hlt
  · exact absurd h (List.lt_irrefl _)
  · exact absurd h (List.lt_asymm (hmono hgt))

end ApiGateway.Text
