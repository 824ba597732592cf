import ApiGateway.Json.Reader
import Mathlib.Data.List.TakeWhile
import Mathlib.Data.Nat.Digits.Defs

/-! Integers and strings are read as they were written. An escape stands for the character that it
was written for, and a number ends where no more of it follows. -/

namespace ApiGateway.Json

/-! ## Integers -/

def Delimited : List Char → Prop
  | [] => True
  | c :: _ => isDigit c = false ∧ c ≠ '.' ∧ c ≠ 'e' ∧ c ≠ 'E'

variable {n : Nat} {rest : List Char}

theorem isDigit_of_mem_toDigits {c : Char} (h : c ∈ Nat.toDigits 10 n) : isDigit c = true := by
  have hc := Nat.isDigit_of_mem_toDigits (by decide) (by decide) h
  simpa [Char.isDigit, isDigit, Char.le_def, UInt32.le_iff_toNat_le] using hc

theorem naturalOf_toDigits (n : Nat) : naturalOf (Nat.toDigits 10 n) = n :=
  Nat.ofDigitChars_eq_foldl.symm.trans Nat.ofDigitChars_ten_toDigits

theorem head_toDigits (hn : n ≠ 0) : ∃ c digits, Nat.toDigits 10 n = c :: digits ∧ c ≠ '0' := by
  induction n using Nat.strongRecOn with
  | ind n ih =>
    rcases Nat.lt_or_ge n 10 with hlt | hge
    · have hall : ∀ m : Fin 10, m.val ≠ 0 → Nat.digitChar m ≠ '0' := by decide
      exact ⟨_, [], Nat.toDigits_of_lt_base hlt, hall ⟨n, hlt⟩ hn⟩
    · obtain ⟨c, digits, hdigits, hc⟩ := ih (n / 10) (by omega) (by omega)
      rw [Nat.toDigits_of_base_le (by decide) hge, hdigits]
      exact ⟨c, _, rfl, hc⟩

theorem Delimited.takeWhile_eq (h : Delimited rest) : rest.takeWhile isDigit = [] := by
  cases rest with
  | nil => rfl
  | cons c rest => exact List.takeWhile_cons_of_neg (Bool.not_eq_true _ ▸ h.1)

theorem Delimited.dropWhile_eq (h : Delimited rest) : rest.dropWhile isDigit = rest := by
  cases rest with
  | nil => rfl
  | cons c rest => exact List.dropWhile_cons_of_neg (Bool.not_eq_true _ ▸ h.1)

theorem readFraction_delimited (negative : Bool) (digits : List Char) (hrest : Delimited rest) :
    readFraction negative digits rest = (Numeral.value negative ⟨digits, 0, true⟩, .rest rest) := by
  unfold readFraction
  split
  · exact absurd rfl hrest.2.1
  · exact absurd rfl hrest.2.2.1
  · exact absurd rfl hrest.2.2.2
  · rfl

theorem readNumber_toDigits (negative : Bool) (n : Nat) (hrest : Delimited rest) :
    readNumber negative (Nat.toDigits 10 n ++ rest) =
      (Numeral.value negative ⟨Nat.toDigits 10 n, 0, true⟩, .rest rest) := by
  have hall : ∀ c ∈ Nat.toDigits 10 n, isDigit c = true := fun c => isDigit_of_mem_toDigits
  unfold readNumber
  rw [List.takeWhile_append_of_pos hall, List.dropWhile_append_of_pos hall, hrest.takeWhile_eq,
    hrest.dropWhile_eq, List.append_nil]
  dsimp only
  split
  next hnil => exact absurd hnil Nat.toDigits_ne_nil
  next hzero =>
    have hne : n ≠ 0 := by
      rintro rfl
      cases hzero
    obtain ⟨c, _, hdigits, hc⟩ := head_toDigits hne
    exact absurd (List.cons.inj (hdigits.symm.trans hzero)).1 hc
  next => exact readFraction_delimited negative _ hrest

theorem readNumber_natural (hn : Number.fits n = true) (hrest : Delimited rest) :
    readNumber false (Nat.toDigits 10 n ++ rest) = (.num (.int n), .rest rest) := by
  rw [readNumber_toDigits _ _ hrest]
  simp only [Numeral.value, naturalOf_toDigits, hn, Bool.false_eq_true, if_false, if_true]

theorem readNumber_negative (hn : Number.fits (-(n : Int)) = true) (hpos : n ≠ 0)
    (hrest : Delimited rest) :
    readNumber true (Nat.toDigits 10 n ++ rest) = (.num (.int (-(n : Int))), .rest rest) := by
  rw [readNumber_toDigits _ _ hrest]
  simp [Numeral.value, naturalOf_toDigits, hn, hpos]

/-! ## Strings -/

inductive Piece.Means (c : Char) : Piece → Prop where
  | char : Means c (.char c)
  | unit (hcontrol : c.toNat < 0x20) : Means c (.unit c.toNat)

theorem hexNumber?_control {n : Nat} (h : n < 0x20) :
    Text.hexNumber? ['0', '0', Text.hexDigit (n / 16), Text.hexDigit (n % 16)] = some n := by
  have hall : ∀ m : Fin 32,
      Text.hexNumber? ['0', '0', Text.hexDigit (m / 16), Text.hexDigit (m % 16)] =
        some m.val := by decide
  exact hall ⟨n, h⟩

theorem scanPieces_simple {letter c : Char} (hunit : letter ≠ 'u')
    (h : simpleEscape? letter = some c) (rest : List Char) :
    scanPieces ('\\' :: letter :: rest) =
      (.char c :: (scanPieces rest).1, (scanPieces rest).2) := by
  simp [scanPieces, hunit, h]

theorem scanPieces_escapeChar (c : Char) (rest : List Char) :
    ∃ piece, Piece.Means c piece ∧
      scanPieces (escapeChar c ++ rest) = (piece :: (scanPieces rest).1, (scanPieces rest).2) := by
  unfold escapeChar
  split_ifs with hquote hslash hline hreturn htab hback hfeed hcontrol
  · exact ⟨_, .char, @scanPieces_simple '"' c (by decide) (congrArg some hquote.symm) rest⟩
  · exact ⟨_, .char, @scanPieces_simple '\\' c (by decide) (congrArg some hslash.symm) rest⟩
  · exact ⟨_, .char, @scanPieces_simple 'n' c (by decide) (congrArg some hline.symm) rest⟩
  · exact ⟨_, .char, @scanPieces_simple 'r' c (by decide) (congrArg some hreturn.symm) rest⟩
  · exact ⟨_, .char, @scanPieces_simple 't' c (by decide) (congrArg some htab.symm) rest⟩
  · have hc : Char.ofNat 8 = c := hback ▸ Char.ofNat_toNat c
    exact ⟨_, .char, @scanPieces_simple 'b' c (by decide) (congrArg some hc) rest⟩
  · have hc : Char.ofNat 12 = c := hfeed ▸ Char.ofNat_toNat c
    exact ⟨_, .char, @scanPieces_simple 'f' c (by decide) (congrArg some hc) rest⟩
  · exact ⟨_, .unit hcontrol, by simp [scanPieces, hexNumber?_control hcontrol]⟩
  · refine ⟨_, .char, ?_⟩
    rw [List.singleton_append, scanPieces.eq_def]
    split <;> simp_all

theorem scanPieces_escaped (chars rest : List Char) :
    ∃ pieces, List.Forall₂ Piece.Means chars pieces ∧
      scanPieces (chars.flatMap escapeChar ++ '"' :: rest) = (pieces, .rest rest) := by
  induction chars with
  | nil => exact ⟨[], .nil, by simp [scanPieces]⟩
  | cons c chars ih =>
    obtain ⟨pieces, hpieces, hscan⟩ := ih
    rw [List.flatMap_cons, List.append_assoc]
    obtain ⟨piece, hpiece, hhead⟩ :=
      scanPieces_escapeChar c (chars.flatMap escapeChar ++ '"' :: rest)
    exact ⟨piece :: pieces, .cons hpiece hpieces, by rw [hhead, hscan]⟩

theorem assemble_unit {pieces : List Piece} (hn : n < 0x20) :
    assemble none (.unit n :: pieces) = (assemble none pieces).map (Char.ofNat n :: ·) := by
  have htrailing : isTrailing n = false := by simp [isTrailing]; omega
  have hleading : isLeading n = false := by simp [isLeading]; omega
  -- a unit looks at the piece after it, which does not matter unless the two are a pair
  rcases pieces with _ | ⟨c | m, rest⟩ <;>
    simp only [assemble, htrailing, hleading, Bool.false_eq_true, if_false]
  · rfl
  · cases assemble none rest <;> rfl
  · cases assemble none (.unit m :: rest) <;> rfl

theorem assemble_of_means {chars : List Char} {pieces : List Piece}
    (h : List.Forall₂ Piece.Means chars pieces) : assemble none pieces = .ok chars := by
  induction h with
  | nil => rfl
  | cons hpiece _ ih =>
    cases hpiece with
    | char => simp only [assemble, ih]; rfl
    | unit hcontrol => rw [assemble_unit hcontrol, ih, Char.ofNat_toNat]; rfl

theorem scanString_escaped (s : String) (rest : List Char) :
    scanString (s.toList.flatMap escapeChar ++ '"' :: rest) = (.ok s, .rest rest) := by
  obtain ⟨pieces, hpieces, hscan⟩ := scanPieces_escaped s.toList rest
  unfold scanString
  simp only [hscan, assemble_of_means hpieces, Except.map, String.ofList_toList]

end ApiGateway.Json
