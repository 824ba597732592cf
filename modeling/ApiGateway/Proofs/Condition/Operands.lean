import ApiGateway.Proofs.Condition.Grammar
import ApiGateway.Proofs.Except
import Mathlib.Data.List.Basic

/-! Operands. An operator refuses the first of its operands that is not of the kind expected there,
and an operator of conditions fails where one of these does. -/

namespace ApiGateway

namespace OperandKind

structure ReadBy {α : Type} (kind : OperandKind) (operator : Operator)
    (read : Json → Except CompileError α) : Prop where
  accepted {raw : Json} (h : kind.Accepts raw) : ∃ a, read raw = .ok a
  refused {raw : Json} (h : ¬ kind.Accepts raw) : read raw = .error (kind.refusal operator raw)

namespace ReadBy

variable {α : Type} {kind : OperandKind} {operator : Operator}
  {read : Json → Except CompileError α} {raw : Json} {e : CompileError}

theorem eq_error (h : kind.ReadBy operator read) :
    read raw = .error e ↔ ¬ kind.Accepts raw ∧ kind.refusal operator raw = e := by
  by_cases haccepts : kind.Accepts raw
  · obtain ⟨a, ha⟩ := h.accepted haccepts
    rw [ha]
    exact iff_of_false nofun fun hrefused => hrefused.1 haccepts
  · rw [h.refused haccepts, Except.error.injEq]
    exact (and_iff_right haccepts).symm

theorem exists_ok (h : kind.ReadBy operator read) : (∃ a, read raw = .ok a) ↔ kind.Accepts raw := by
  refine ⟨fun ⟨a, ha⟩ => ?_, h.accepted⟩
  by_cases haccepts : kind.Accepts raw
  · exact haccepts
  · rw [h.refused haccepts] at ha
    cases ha

end ReadBy

theorem text_readBy (operator : Operator) :
    text.ReadBy operator (Condition.textOperand operator) where
  accepted := by
    rintro _ ⟨s, rfl⟩
    exact ⟨s, rfl⟩
  refused := by
    intro raw h
    cases raw with
    | str s => exact absurd ⟨s, rfl⟩ h
    | _ => rfl

theorem selector_readBy (operator : Operator) :
    selector.ReadBy operator (Condition.fieldOperand operator) where
  accepted := by
    rintro _ ⟨s, rfl, hs⟩
    obtain ⟨field, hfield⟩ := Option.isSome_iff_exists.mp (Field.ofSelector?_isSome.mpr hs)
    refine ⟨field, ?_⟩
    simp only [Condition.fieldOperand, Condition.textOperand, bind, Except.bind, hfield]
  refused := by
    intro raw h
    cases raw with
    | str s =>
      have hs : ¬ (Field.ofSelector? s).isSome = true := by
        intro hsome
        exact h ⟨s, rfl, Field.ofSelector?_isSome.mp hsome⟩
      simp only [Condition.fieldOperand, Condition.textOperand, bind, Except.bind,
        Option.not_isSome_iff_eq_none.mp hs, refusal]
    | _ => rfl

theorem literal_readBy (operator : Operator) :
    literal.ReadBy operator (Condition.literalOperand operator) where
  accepted := by
    intro raw h
    match raw with
    | .str s => exact ⟨s, rfl⟩
    | .num n => exact ⟨_, rfl⟩
    | .bool true => exact ⟨_, rfl⟩
    | .bool false => exact ⟨_, rfl⟩
  refused := by
    intro raw h
    cases raw with
    | str | num | bool => exact absurd trivial h
    | _ => rfl

theorem method_readBy : method.ReadBy .method Condition.methodOperand where
  accepted := by
    rintro _ ⟨s, rfl, hs⟩
    rw [← isToken_map isTokenChar_toUpper, ← Method.ofText?_isSome] at hs
    obtain ⟨m, hm⟩ := Option.isSome_iff_exists.mp hs
    refine ⟨m, ?_⟩
    simp only [Condition.methodOperand, Condition.textOperand, bind, Except.bind, hm]
  refused := by
    intro raw h
    cases raw with
    | str s =>
      have hs : ¬ (Method.ofText? (String.ofList (s.toList.map Char.toUpper))).isSome = true := by
        rw [Method.ofText?_isSome, isToken_map isTokenChar_toUpper]
        intro htoken
        exact h ⟨s, rfl, htoken⟩
      simp only [Condition.methodOperand, Condition.textOperand, bind, Except.bind,
        Option.not_isSome_iff_eq_none.mp hs, refusal]
    | _ => rfl

end OperandKind

namespace Operator

variable {operator : Operator} {index : Nat} {operand : Json} {rest operands : List Json}
  {e : CompileError}

theorem not_refuses_nil : ¬ operator.Refuses index [] e := nofun

theorem refuses_cons :
    operator.Refuses index (operand :: rest) e ↔
      (¬ (operator.kind index).Accepts operand ∧
        (operator.kind index).refusal operator operand = e) ∨
      (operator.kind index).Accepts operand ∧ operator.Refuses (index + 1) rest e := by
  constructor
  · intro h
    cases h with
    | here hrefused => exact Or.inl ⟨hrefused, rfl⟩
    | later haccepts hrest => exact Or.inr ⟨haccepts, hrest⟩
  · rintro (⟨hrefused, rfl⟩ | ⟨haccepts, hrest⟩)
    · exact .here hrefused
    · exact .later haccepts hrest

theorem refuses_singleton :
    operator.Refuses index [operand] e ↔
      ¬ (operator.kind index).Accepts operand ∧
        (operator.kind index).refusal operator operand = e := by
  rw [refuses_cons]
  exact or_iff_left fun h => not_refuses_nil h.2

theorem not_refuses_of_nests (hnests : nests operator.name = true) :
    ¬ operator.Refuses index operands e := by
  intro h
  induction h with
  | @here index operand rest hrefused =>
    apply hrefused
    cases operator with
    | all | any | negate => trivial
    | _ => cases hnests
  | later _ _ ih => exact ih

end Operator

namespace Condition

variable {operator : Operator} {operands : List Json} {e : CompileError}
  {nested : Except CompileError (List Condition)}

theorem methodOperands_eq_error {index : Nat} :
    methodOperands operands = .error e ↔ Operator.method.Refuses index operands e := by
  induction operands generalizing index with
  | nil => exact iff_of_false nofun Operator.not_refuses_nil
  | cons operand rest ih =>
    rw [methodOperands, bind_eq_error, Operator.refuses_cons]
    simp only [bind_eq_error, reduceCtorEq, and_false, exists_false, or_false]
    rw [exists_and_right, OperandKind.method_readBy.eq_error, OperandKind.method_readBy.exists_ok,
      ih]
    rfl

theorem applyOperator_eq_error_of_nests (harity : operator.arity.admits operands.length = true)
    (hnested : ∀ items, nested = .ok items → items.length = operands.length)
    (hnests : nests operator.name = true) :
    applyOperator operator operands nested = .error e ↔ nested = .error e := by
  cases operator with
  | all | any =>
    simp only [applyOperator, harity, Bool.not_true, Bool.false_eq_true, if_false]
    exact map_eq_error
  | negate =>
    simp only [applyOperator, harity, Bool.not_true, Bool.false_eq_true, if_false]
    rw [bind_eq_error]
    refine or_iff_left ?_
    rintro ⟨items, hitems, h⟩
    -- there is one operand, so there is one condition nested in it
    have hlength := hnested items hitems
    rw [of_decide_eq_true harity] at hlength
    obtain ⟨item, rfl⟩ := List.length_eq_one_iff.mp hlength
    cases h
  | _ => cases hnests

theorem applyOperator_eq_error_of_not_nests
    (harity : operator.arity.admits operands.length = true)
    (hnests : nests operator.name = false) :
    applyOperator operator operands nested = .error e ↔ operator.Refuses 0 operands e := by
  cases operator with
  | always | never =>
    obtain rfl := List.length_eq_zero_iff.mp (of_decide_eq_true harity)
    exact iff_of_false nofun Operator.not_refuses_nil
  | equals =>
    obtain ⟨selector, value, rfl⟩ := List.length_eq_two.mp (of_decide_eq_true harity)
    have happly : applyOperator .equals [selector, value] nested =
        fieldOperand .equals selector >>= fun field =>
          literalOperand .equals value >>= fun text => .ok (.equals field text) := rfl
    rw [happly, bind_eq_error, Operator.refuses_cons, Operator.refuses_singleton]
    simp only [bind_eq_error, reduceCtorEq, and_false, exists_false, or_false]
    rw [exists_and_right, (OperandKind.selector_readBy .equals).eq_error,
      (OperandKind.selector_readBy .equals).exists_ok,
      (OperandKind.literal_readBy .equals).eq_error]
    rfl
  | present =>
    obtain ⟨selector, rfl⟩ := List.length_eq_one_iff.mp (of_decide_eq_true harity)
    rw [Operator.refuses_singleton]
    exact map_eq_error.trans (OperandKind.selector_readBy .present).eq_error
  | method =>
    simp only [applyOperator, harity, Bool.not_true, Bool.false_eq_true, if_false]
    exact map_eq_error.trans methodOperands_eq_error
  | pathExact =>
    obtain ⟨path, rfl⟩ := List.length_eq_one_iff.mp (of_decide_eq_true harity)
    rw [Operator.refuses_singleton]
    exact map_eq_error.trans (OperandKind.text_readBy .pathExact).eq_error
  | pathPrefix =>
    obtain ⟨path, rfl⟩ := List.length_eq_one_iff.mp (of_decide_eq_true harity)
    rw [Operator.refuses_singleton]
    exact map_eq_error.trans (OperandKind.text_readBy .pathPrefix).eq_error
  | _ => cases hnests

theorem applyOperator_eq_error (harity : operator.arity.admits operands.length = true)
    (hnested : ∀ items, nested = .ok items → items.length = operands.length) :
    applyOperator operator operands nested = .error e ↔
      operator.Refuses 0 operands e ∨ nests operator.name = true ∧ nested = .error e := by
  cases hnests : nests operator.name with
  | true =>
    rw [or_iff_right (Operator.not_refuses_of_nests hnests), and_iff_right rfl]
    exact applyOperator_eq_error_of_nests harity hnested hnests
  | false =>
    rw [or_iff_left (fun h => Bool.false_ne_true h.1)]
    exact applyOperator_eq_error_of_not_nests harity hnests

end Condition
end ApiGateway
