import ApiGateway.Text.Quoted
import Mathlib.Data.Nat.Digits.Defs
import Mathlib.Tactic.SplitIfs

/-! Texts that show where they end. A quoted literal is cut off at its closing quote whatever comes
after it, and a word at the first space or parenthesis; what is cut off is what was written. -/

namespace ApiGateway.Text

variable {c d : Char} {v w x y : List Char} {m n : Nat}

/-! ## Words -/

theorem append_inj_of_class {p : Char → Bool} (hv : ∀ c ∈ v, p c = true) (hw : ∀ c ∈ w, p c = true)
    (hc : p c = false) (hd : p d = false) (h : v ++ c :: x = w ++ d :: y) :
    v = w ∧ c :: x = d :: y := by
  have hleft : (v ++ c :: x).takeWhile p = v := by
    rw [List.takeWhile_append_of_pos hv, List.takeWhile_cons_of_neg (Bool.not_eq_true _ ▸ hc),
      List.append_nil]
  have hright : (w ++ d :: y).takeWhile p = w := by
    rw [List.takeWhile_append_of_pos hw, List.takeWhile_cons_of_neg (Bool.not_eq_true _ ▸ hd),
      List.append_nil]
  obtain rfl : v = w := by rw [← hleft, ← hright, h]
  exact ⟨rfl, List.append_cancel_left h⟩

def endsWord (c : Char) : Bool := c = ' ' || c = ')'

theorem endsWord_of_any (h : w.any endsWord = false) : ∀ c ∈ w, endsWord c = false :=
  fun c hc => Bool.eq_false_iff.mpr (List.any_eq_false.mp h c hc)

inductive AtEnd : List Char → Prop where
  | intro {c rest} (h : endsWord c = true) : AtEnd (c :: rest)

/-- What is written for one value does not pass for what is written for another one, nor for a part
of it, where a word ends behind both. -/
def ToldApart {α : Type} (write : α → List Char) (a b : α) : Prop :=
  ∀ {x y}, AtEnd x → AtEnd y → write a ++ x = write b ++ y → a = b ∧ x = y

theorem word_append_inj (hv : ∀ c ∈ v, endsWord c = false) (hw : ∀ c ∈ w, endsWord c = false)
    (hx : AtEnd x) (hy : AtEnd y) (h : v ++ x = w ++ y) : v = w ∧ x = y := by
  cases hx with
  | intro hc =>
    cases hy with
    | intro hd =>
      refine append_inj_of_class (p := fun c => !endsWord c) ?_ ?_ ?_ ?_ h
      · exact fun c hmem => by rw [hv c hmem, Bool.not_false]
      · exact fun c hmem => by rw [hw c hmem, Bool.not_false]
      · rw [hc, Bool.not_true]
      · rw [hd, Bool.not_true]

theorem atEnd_row {α : Type} (write : α → List Char) (items : List α) (rest : List Char) :
    AtEnd (items.flatMap (fun a => ' ' :: write a) ++ ')' :: rest) := by
  cases items with
  | nil => exact .intro rfl
  | cons item items => exact .intro rfl

theorem row_append_inj {α : Type} {write : α → List Char} {as bs : List α}
    (happart : ∀ a ∈ as, ∀ b ∈ bs, ToldApart write a b)
    (h : as.flatMap (fun a => ' ' :: write a) ++ ')' :: x =
      bs.flatMap (fun b => ' ' :: write b) ++ ')' :: y) : as = bs ∧ x = y := by
  induction as generalizing bs with
  | nil =>
    cases bs with
    | nil => exact ⟨rfl, (List.cons.inj h).2⟩
    | cons b bs => cases (List.cons.inj h).1
  | cons a as ih =>
    cases bs with
    | nil => cases (List.cons.inj h).1
    | cons b bs =>
      obtain ⟨ha, has⟩ := List.forall_mem_cons.mp happart
      have hfirst : write a ++ (as.flatMap (fun a => ' ' :: write a) ++ ')' :: x) =
          write b ++ (bs.flatMap (fun b => ' ' :: write b) ++ ')' :: y) := by
        simpa only [List.flatMap_cons, List.cons_append, List.append_assoc, List.cons.injEq,
          true_and] using h
      obtain ⟨rfl, hrest⟩ :=
        ha b List.mem_cons_self (atEnd_row write as x) (atEnd_row write bs y) hfirst
      obtain ⟨rfl, hxy⟩ := ih (fun a' ha' b' hb' => has a' ha' b' (List.mem_cons_of_mem _ hb')) hrest
      exact ⟨rfl, hxy⟩

/-! ## Quoted literals -/

theorem hexNumber?_concat (digits : List Char) (c : Char) :
    hexNumber? (digits ++ [c]) =
      (hexNumber? digits).bind fun n => (hexValue? c).map fun d => 16 * n + d :=
  List.foldl_append

theorem hexValue?_digitChar (h : n < 16) : hexValue? (Nat.digitChar n) = some n := by
  have hall : ∀ m : Fin 16, hexValue? (Nat.digitChar m) = some m.val := by decide
  exact hall ⟨n, h⟩

theorem hexNumber?_hexText (n : Nat) : hexNumber? (hexText n) = some n := by
  induction n using Nat.strongRecOn with
  | ind n ih =>
    rw [hexText]
    rcases Nat.lt_or_ge n 16 with hlt | hge
    · rw [Nat.toDigits_of_lt_base hlt]
      have hdigit : hexNumber? [Nat.digitChar n] =
          (hexValue? (Nat.digitChar n)).map fun d => 16 * 0 + d := hexNumber?_concat [] _
      rw [hdigit, hexValue?_digitChar hlt, Option.map_some, Nat.mul_zero, Nat.zero_add]
    · have hquotient := ih (n / 16) (by omega)
      rw [hexText] at hquotient
      rw [Nat.toDigits_of_base_le (by decide) hge, hexNumber?_concat, hquotient,
        hexValue?_digitChar (Nat.mod_lt n (by decide)), Option.bind_some, Option.map_some,
        Nat.div_add_mod]

theorem isSome_hexValue?_of_mem_hexText (h : c ∈ hexText n) : (hexValue? c).isSome = true := by
  induction n using Nat.strongRecOn with
  | ind n ih =>
    rw [hexText] at h
    rcases Nat.lt_or_ge n 16 with hlt | hge
    · rw [Nat.toDigits_of_lt_base hlt, List.mem_singleton] at h
      rw [h, hexValue?_digitChar hlt]
      rfl
    · rw [Nat.toDigits_of_base_le (by decide) hge, List.mem_append, List.mem_singleton] at h
      rcases h with h | rfl
      · exact ih (n / 16) (by omega) h
      · rw [hexValue?_digitChar (Nat.mod_lt n (by decide))]
        rfl

def escapeMarks : List (Char × Char) :=
  [('"', '"'), ('\\', '\\'), ('\n', 'n'), ('\r', 'r'), ('\t', 't'), (Char.ofNat 0, '0')]

inductive Escapes : Char → List Char → Prop where
  | bare {c : Char} (hquote : c ≠ '"') (hbackslash : c ≠ '\\') : Escapes c [c]
  | mark {c mark : Char} (h : (c, mark) ∈ escapeMarks) : Escapes c ['\\', mark]
  | number {c : Char} : Escapes c ('\\' :: 'u' :: '\x7b' :: (hexText c.toNat ++ ['\x7d']))

theorem escapes_escapeChar (c : Char) : Escapes c (escapeChar c) := by
  unfold escapeChar
  split_ifs with hquote hbackslash hfeed hreturn htab hzero hnumber
  · subst hquote
    exact .mark (by decide)
  · subst hbackslash
    exact .mark (by decide)
  · subst hfeed
    exact .mark (by decide)
  · subst hreturn
    exact .mark (by decide)
  · subst htab
    exact .mark (by decide)
  · obtain rfl : c = Char.ofNat 0 := by rw [← hzero, Char.ofNat_toNat]
    exact .mark (by decide)
  · exact .number
  · exact .bare hquote hbackslash

theorem Escapes.append_inj (hv : Escapes c v) (hw : Escapes d w) (h : v ++ x = w ++ y) :
    c = d ∧ x = y := by
  -- no mark stands for two characters, and none is the letter that a number follows
  have hmarks : ∀ p ∈ escapeMarks, p.2 ≠ 'u' ∧ ∀ q ∈ escapeMarks, p.2 = q.2 → p.1 = q.1 := by
    decide
  cases hv with
  | bare hquote hbackslash =>
    cases hw with
    | bare => exact List.cons.inj h
    | mark | number => exact absurd (List.cons.inj h).1 hbackslash
  | mark hc =>
    cases hw with
    | bare hquote hbackslash => exact absurd (List.cons.inj h).1.symm hbackslash
    | mark hd =>
      obtain ⟨hmark, hxy⟩ := List.cons.inj (List.cons.inj h).2
      exact ⟨(hmarks _ hc).2 _ hd hmark, hxy⟩
    | number => exact absurd (List.cons.inj (List.cons.inj h).2).1 (hmarks _ hc).1
  | number =>
    cases hw with
    | bare hquote hbackslash => exact absurd (List.cons.inj h).1.symm hbackslash
    | mark hd => exact absurd (List.cons.inj (List.cons.inj h).2).1.symm (hmarks _ hd).1
    | number =>
      simp only [List.cons_append, List.append_assoc, List.nil_append, List.cons.injEq, true_and]
        at h
      obtain ⟨hdigits, hrest⟩ := append_inj_of_class (p := fun c => (hexValue? c).isSome)
        (fun _ => isSome_hexValue?_of_mem_hexText) (fun _ => isSome_hexValue?_of_mem_hexText)
        rfl rfl h
      have hnumber : c.toNat = d.toNat := by
        rw [← Option.some.injEq, ← hexNumber?_hexText, hdigits, hexNumber?_hexText]
      exact ⟨Char.toNat_inj.mp hnumber, (List.cons.inj hrest).2⟩

theorem Escapes.ne_quote (h : Escapes c v) : v ++ x ≠ '"' :: y := by
  intro hsame
  cases h with
  | bare hquote => exact hquote (List.cons.inj hsame).1
  | mark | number => exact absurd (List.cons.inj hsame).1 (by decide)

theorem escape_append_inj {s t : List Char} (h : escape s ++ '"' :: x = escape t ++ '"' :: y) :
    s = t ∧ x = y := by
  -- the first quote that nothing escapes is the closing one
  induction s generalizing t with
  | nil =>
    cases t with
    | nil => exact ⟨rfl, (List.cons.inj h).2⟩
    | cons d t =>
      rw [escape, escape, List.flatMap_nil, List.flatMap_cons, List.append_assoc] at h
      exact absurd h.symm (escapes_escapeChar d).ne_quote
  | cons c s ih =>
    rw [escape, List.flatMap_cons, List.append_assoc] at h
    cases t with
    | nil => exact absurd h (escapes_escapeChar c).ne_quote
    | cons d t =>
      rw [escape, List.flatMap_cons, List.append_assoc] at h
      obtain ⟨rfl, hrest⟩ := (escapes_escapeChar c).append_inj (escapes_escapeChar d) h
      obtain ⟨rfl, hxy⟩ := ih hrest
      exact ⟨rfl, hxy⟩

theorem quoted_append_inj {s t : String} (h : (quoted s).toList ++ x = (quoted t).toList ++ y) :
    s = t ∧ x = y := by
  simp only [quoted, String.toList_ofList, List.cons_append, List.append_assoc, List.nil_append,
    List.cons.injEq, true_and] at h
  obtain ⟨hchars, hxy⟩ := escape_append_inj h
  exact ⟨String.toList_inj.mp hchars, hxy⟩

end ApiGateway.Text
