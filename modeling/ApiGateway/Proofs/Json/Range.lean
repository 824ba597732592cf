import ApiGateway.Json.Reader
import Mathlib.Tactic.SplitIfs

/-! The integers of a document that was read from a text fit 64 bits. -/

namespace ApiGateway

inductive Document.InRange : Document → Prop where
  | null : InRange .null
  | bool {b : Bool} : InRange (.bool b)
  | int {n : Int} (hfits : Number.fits n = true) : InRange (.num (.int n))
  | float {x : Decimal.Binary64} : InRange (.num (.float x))
  | unbounded : InRange .unbounded
  | str {s : String} : InRange (.str s)
  | list {items : List Document} {stop : Option Stop} (hitems : ∀ d ∈ items, InRange d) :
      InRange (.list items stop)
  | table {members : List (Except Stop String × Document)} {stop : Option Stop}
      (hmembers : ∀ m ∈ members, InRange m.2) : InRange (.table members stop)
  | broken {read : Stop} {skip : Option Stop} : InRange (.broken read skip)

namespace Json

open Document (InRange)

theorem inRange_readString (chars : List Char) : (readString chars).1.InRange := by
  unfold readString
  split
  · exact .str
  · exact .broken
  · exact .broken

theorem inRange_value (negative : Bool) (n : Numeral) : (n.value negative).InRange := by
  unfold Numeral.value
  extract_lets natural float
  have hfloat : float.InRange := by
    simp only [float]
    split
    · exact .float
    · exact .broken
  split
  · split
    · split
      next h => exact .int (Bool.and_eq_true_iff.mp h).2
      next => exact hfloat
    · split
      next h => exact .int h
      next => exact hfloat
  · exact hfloat

theorem inRange_value_rest (negative : Bool) (n : Numeral) (tail : Tail) :
    (n.value negative, tail).1.InRange := inRange_value negative n

theorem inRange_truncated (chars : List Char) : (truncated chars).1.InRange := .broken

theorem inRange_readExponent (negative : Bool) (digits : List Char) (places : Nat)
    (chars : List Char) : (readExponent negative digits places chars).1.InRange := by
  unfold readExponent
  -- whatever the sign of the exponent
  split
  next down rest _ =>
    dsimp only
    split
    · exact inRange_truncated _
    · exact inRange_value_rest _ _ _

theorem inRange_readFraction (negative : Bool) (digits chars : List Char) :
    (readFraction negative digits chars).1.InRange := by
  unfold readFraction
  split
  · dsimp only
    split
    · exact inRange_truncated _
    · split
      · exact inRange_readExponent _ _ _ _
      · exact inRange_readExponent _ _ _ _
      · exact inRange_value_rest _ _ _
  · exact inRange_readExponent _ _ _ _
  · exact inRange_readExponent _ _ _ _
  · exact inRange_value_rest _ _ _

theorem inRange_readNumber (negative : Bool) (chars : List Char) :
    (readNumber negative chars).1.InRange := by
  unfold readNumber
  dsimp only
  split
  · exact inRange_truncated _
  · exact .broken
  · exact inRange_readFraction _ _ _

theorem inRange_readWord {value : Document} (hvalue : value.InRange) (word chars : List Char) :
    (readWord value word chars).1.InRange := by
  induction word generalizing chars with
  | nil => exact hvalue
  | cons w ws ih =>
    cases chars with
    | nil => exact .broken
    | cons c chars =>
      rw [readWord]
      split_ifs
      · exact ih chars
      · exact .broken

theorem inRange_bounded {found : Document × Tail} (h : found.1.InRange) (depth : Nat)
    (stop : Stop) : (bounded depth stop found).1.InRange := by
  unfold bounded
  split_ifs
  · exact h
  · split <;> exact .broken

theorem inRange_read (fuel : Nat) :
    (∀ depth chars, (readValue fuel depth chars).1.InRange) ∧
    (∀ depth chars, ∀ d ∈ (readItems fuel depth chars).1, d.InRange) ∧
    ∀ depth chars, ∀ m ∈ (readMembers fuel depth chars).1, m.2.InRange := by
  induction fuel with
  | zero =>
    refine ⟨fun _ _ => .broken, fun _ _ => List.forall_mem_nil _, fun _ _ => ?_⟩
    exact List.forall_mem_singleton.mpr .broken
  | succ fuel ih =>
    obtain ⟨hvalue, hitems, hmembers⟩ := ih
    refine ⟨fun depth chars => ?_, fun depth chars => ?_, fun depth chars => ?_⟩
    · rw [readValue.eq_def]
      dsimp only
      split
      · exact .broken
      · exact inRange_readString _
      · exact inRange_readNumber _ _
      · exact inRange_readWord .null _ _
      · exact inRange_readWord .bool _ _
      · exact inRange_readWord .bool _ _
      · refine inRange_bounded ?_ _ _
        split
        · exact .list (List.forall_mem_nil _)
        · exact .list (List.forall_mem_nil _)
        · exact .list (hitems _ _)
      · refine inRange_bounded ?_ _ _
        split
        · exact .table (List.forall_mem_nil _)
        · exact .table (List.forall_mem_nil _)
        · exact .table (hmembers _ _)
      · split_ifs
        · exact inRange_readNumber _ _
        · exact .broken
    · rw [readItems.eq_def]
      dsimp only
      have hitem := hvalue depth chars
      split
      next heq =>
        rw [heq] at hitem
        exact List.forall_mem_singleton.mpr hitem
      next heq =>
        rw [heq] at hitem
        split
        · exact List.forall_mem_singleton.mpr hitem
        · split
          · exact List.forall_mem_cons.mpr ⟨hitem, List.forall_mem_singleton.mpr .broken⟩
          · exact List.forall_mem_cons.mpr ⟨hitem, hitems _ _⟩
        · exact List.forall_mem_singleton.mpr hitem
        · exact List.forall_mem_singleton.mpr hitem
    · rw [readMembers.eq_def]
      dsimp only
      split
      · exact List.forall_mem_singleton.mpr .broken
      · split
        · exact List.forall_mem_singleton.mpr .broken
        · exact List.forall_mem_singleton.mpr .broken
        · split
          next rest _ =>
            have hmember := hvalue depth rest
            split
            next heq =>
              rw [heq] at hmember
              exact List.forall_mem_singleton.mpr hmember
            next heq =>
              rw [heq] at hmember
              split
              · exact List.forall_mem_singleton.mpr hmember
              · exact List.forall_mem_cons.mpr ⟨hmember, hmembers _ _⟩
              · exact List.forall_mem_singleton.mpr hmember
              · exact List.forall_mem_singleton.mpr hmember
          · exact List.forall_mem_singleton.mpr .broken
          · exact List.forall_mem_singleton.mpr .broken
      · exact List.forall_mem_singleton.mpr .broken
      · exact List.forall_mem_singleton.mpr .broken

theorem inRange_document (text : String) : (document text).1.InRange := by
  have hread := (inRange_read (2 * text.toList.length + 2)).1 0 text.toList
  unfold document
  dsimp only
  split
  next heq => rwa [heq] at hread
  next heq => rwa [heq] at hread

end Json

end ApiGateway
