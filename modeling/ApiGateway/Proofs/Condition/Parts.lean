import ApiGateway.Proofs.Condition.Rejection

/-! What conditions are made of. A compiled condition is as deep as what it was compiled from, its
parts can all be written down, and it does not depend on the depth it was compiled at. -/

namespace ApiGateway

def Method.Capital (m : Method) : Prop := ∀ c ∈ m.text.toList, c.isLower = false

namespace Condition

mutual

def depth : Condition → Nat
  | .all items => itemsDepth items + 1
  | .any items => itemsDepth items + 1
  | .negate item => depth item + 1
  | _ => 1

def itemsDepth : List Condition → Nat
  | [] => 0
  | item :: rest => max (depth item) (itemsDepth rest)

end

mutual

def parts : Condition → List Condition
  | .all items => .all items :: itemsParts items
  | .any items => .any items :: itemsParts items
  | .negate item => .negate item :: parts item
  | c => [c]

def itemsParts : List Condition → List Condition
  | [] => []
  | item :: rest => parts item ++ itemsParts rest

end

/-- A condition that can be written down, those nested in it aside: it has an operand where its
operator needs one, its methods are in upper case, and a selector names its field. -/
def Proper : Condition → Prop
  | .all items => items ≠ []
  | .any items => items ≠ []
  | .method methods => methods ≠ [] ∧ ∀ m ∈ methods, m.Capital
  | .equals field _ => field.Named
  | .present field => field.Named
  | _ => True

inductive Joins : Operator → List Condition → Condition → Prop where
  | all {items} : Joins .all items (.all items)
  | any {items} : Joins .any items (.any items)
  | negate {item} : Joins .negate [item] (.negate item)

section

variable {operator : Operator} {operands : List Json} {items : List Condition} {c : Condition}
  {nested : Except CompileError (List Condition)}

theorem itemsParts_eq_flatMap (items : List Condition) :
    itemsParts items = items.flatMap parts := by
  induction items with
  | nil => rfl
  | cons item rest ih => rw [itemsParts, ih, List.flatMap_cons]

theorem mem_parts_self (c : Condition) : c ∈ c.parts := by
  cases c <;> exact List.mem_cons_self

theorem depth_le_itemsDepth {item : Condition} (h : item ∈ items) :
    item.depth ≤ itemsDepth items := by
  induction items with
  | nil => cases h
  | cons first rest ih =>
    rw [itemsDepth]
    rcases List.mem_cons.mp h with rfl | hrest
    · exact Nat.le_max_left _ _
    · exact Nat.le_trans (ih hrest) (Nat.le_max_right _ _)

theorem Joins.depth_eq (h : Joins operator items c) : c.depth = itemsDepth items + 1 := by
  cases h with
  | all | any => rfl
  | negate => simp only [depth, itemsDepth, Nat.max_zero]

theorem Joins.parts_eq (h : Joins operator items c) : c.parts = c :: itemsParts items := by
  cases h with
  | all | any => rfl
  | negate => simp only [parts, itemsParts, List.append_nil]

theorem not_admits_zero_of_nests (hnests : nests operator.name = true) :
    operator.arity.admits 0 ≠ true := by
  cases operator with
  | all | any | negate => decide
  | _ => cases hnests

theorem Joins.proper (h : Joins operator items c) (hsome : items ≠ []) : c.Proper := by
  cases h with
  | all | any => exact hsome
  | negate => trivial

/-! ## What an operator makes -/

theorem admits_of_applyOperator (h : applyOperator operator operands nested = .ok c) :
    operator.arity.admits operands.length = true := by
  cases harity : operator.arity.admits operands.length with
  | true => rfl
  | false =>
    rw [applyOperator_of_arity harity] at h
    cases h

theorem text_of_methodOperand {raw : Json} {m : Method} (h : methodOperand raw = .ok m) :
    ∃ name, raw = .str name ∧ m.text.toList = name.toList.map Char.toUpper := by
  obtain ⟨name, hname, h⟩ := bind_eq_ok.mp h
  obtain ⟨s, rfl⟩ := (OperandKind.text_readBy .method).exists_ok.mp ⟨name, hname⟩
  obtain rfl := Except.ok.inj hname
  refine ⟨s, rfl, ?_⟩
  cases hmethod : Method.ofText? (String.ofList (s.toList.map Char.toUpper)) with
  | none =>
    rw [hmethod] at h
    cases h
  | some found =>
    rw [hmethod] at h
    cases h
    unfold Method.ofText? at hmethod
    split at hmethod
    · cases hmethod
      exact String.toList_ofList
    · cases hmethod

theorem capital_of_methodOperand {raw : Json} {m : Method} (h : methodOperand raw = .ok m) :
    m.Capital := by
  obtain ⟨name, _, htext⟩ := text_of_methodOperand h
  exact (map_toUpper_eq_iff.mp htext.symm).1

theorem methodOperands_capital {methods : List Method} (h : methodOperands operands = .ok methods) :
    methods.length = operands.length ∧ ∀ m ∈ methods, m.Capital := by
  induction operands generalizing methods with
  | nil =>
    cases h
    exact ⟨rfl, List.forall_mem_nil _⟩
  | cons raw rest ih =>
    rw [methodOperands, bind_eq_ok] at h
    obtain ⟨m, hm, h⟩ := h
    obtain ⟨ms, hms, h⟩ := bind_eq_ok.mp h
    cases h
    obtain ⟨hlength, hcapital⟩ := ih hms
    exact ⟨congrArg (· + 1) hlength,
      List.forall_mem_cons.mpr ⟨capital_of_methodOperand hm, hcapital⟩⟩

theorem named_of_fieldOperand {raw : Json} {field : Field}
    (h : fieldOperand operator raw = .ok field) : field.Named := by
  obtain ⟨selector, _, h⟩ := bind_eq_ok.mp h
  cases hfield : Field.ofSelector? selector with
  | none =>
    rw [hfield] at h
    cases h
  | some found =>
    rw [hfield] at h
    cases h
    exact Field.named_of_ofSelector? hfield

theorem leaf_of_applyOperator (hnests : nests operator.name = false)
    (h : applyOperator operator operands nested = .ok c) :
    c.depth = 1 ∧ c.parts = [c] ∧ c.Proper := by
  have harity := admits_of_applyOperator h
  cases operator with
  | always | never =>
    simp only [applyOperator, harity, Bool.not_true, Bool.false_eq_true, if_false] at h
    cases h
    exact ⟨rfl, rfl, trivial⟩
  | equals =>
    obtain ⟨selector, value, rfl⟩ := List.length_eq_two.mp (of_decide_eq_true harity)
    obtain ⟨field, hfield, h⟩ := bind_eq_ok.mp
      (show fieldOperand .equals selector >>= (fun field =>
        literalOperand .equals value >>= fun text => .ok (.equals field text)) = .ok c from h)
    obtain ⟨text, _, h⟩ := bind_eq_ok.mp h
    cases h
    exact ⟨rfl, rfl, named_of_fieldOperand hfield⟩
  | present =>
    obtain ⟨selector, rfl⟩ := List.length_eq_one_iff.mp (of_decide_eq_true harity)
    obtain ⟨field, hfield, rfl⟩ := map_eq_ok.mp h
    exact ⟨rfl, rfl, named_of_fieldOperand hfield⟩
  | method =>
    simp only [applyOperator, harity, Bool.not_true, Bool.false_eq_true, if_false] at h
    obtain ⟨methods, hmethods, rfl⟩ := map_eq_ok.mp h
    obtain ⟨hlength, hcapital⟩ := methodOperands_capital hmethods
    have hsome : 1 ≤ operands.length := of_decide_eq_true harity
    rw [← hlength] at hsome
    exact ⟨rfl, rfl, List.length_pos_iff.mp hsome, hcapital⟩
  | pathExact | pathPrefix =>
    obtain ⟨path, rfl⟩ := List.length_eq_one_iff.mp (of_decide_eq_true harity)
    obtain ⟨_, _, rfl⟩ := map_eq_ok.mp h
    exact ⟨rfl, rfl, trivial⟩
  | _ => cases hnests

theorem applyOperator_of_not_nests (hnests : nests operator.name = false)
    (operands : List Json) (a b : Except CompileError (List Condition)) :
    applyOperator operator operands a = applyOperator operator operands b := by
  cases operator with
  | all | any | negate => cases hnests
  | _ => rcases operands with _ | ⟨_, _ | ⟨_, _ | ⟨_, _⟩⟩⟩ <;> rfl

theorem applyOperator_eq_ok_of_nests (harity : operator.arity.admits operands.length = true)
    (hnested : ∀ items, nested = .ok items → items.length = operands.length)
    (hnests : nests operator.name = true) :
    applyOperator operator operands nested = .ok c ↔
      ∃ items, nested = .ok items ∧ Joins operator items c := by
  cases operator with
  | all | any =>
    simp only [applyOperator, harity, Bool.not_true, Bool.false_eq_true, if_false]
    rw [map_eq_ok]
    refine exists_congr fun items => and_congr_right fun _ => ⟨?_, ?_⟩
    · rintro rfl
      constructor
    · intro h
      cases h
      rfl
  | negate =>
    simp only [applyOperator, harity, Bool.not_true, Bool.false_eq_true, if_false]
    rw [bind_eq_ok]
    refine exists_congr fun items => and_congr_right fun hitems => ?_
    have hlength := hnested items hitems
    rw [of_decide_eq_true harity] at hlength
    obtain ⟨item, rfl⟩ := List.length_eq_one_iff.mp hlength
    constructor
    · intro h
      cases h
      constructor
    · intro h
      cases h
      rfl
  | _ => cases hnests

end

/-! ## What compiles -/

section

variable {raw : Json} {operator : Operator} {operands : List Json} {items : List Condition}
  {c : Condition} {depth : Nat}

theorem operation_of_compileAt (h : compileAt depth raw = .ok c) :
    depth ≤ maxConditionDepth ∧ ∃ operator operands, raw.Applies operator.name operands ∧
      applyOperator operator operands (compileItems (depth + 1) operands) = .ok c := by
  rcases Nat.lt_or_ge maxConditionDepth depth with hdeep | hdepth
  · rw [compileAt_of_tooDeep hdeep] at h
    cases h
  refine ⟨hdepth, ?_⟩
  cases raw.reading with
  | malformed hshape =>
    rw [compileAt_of_not_applies hdepth hshape] at h
    cases h
  | unknownOperator happlies hname =>
    rw [compileAt_of_unknownOperator hdepth happlies hname] at h
    cases h
  | arity happlies | operation happlies =>
    rw [compileAt_of_operator hdepth happlies] at h
    exact ⟨_, _, happlies, h⟩

theorem forall₂_of_compileItems {motive : Json → Condition → Prop}
    (hoperands : ∀ operand ∈ operands, ∀ item, compileAt depth operand = .ok item →
      motive operand item)
    (h : compileItems depth operands = .ok items) : List.Forall₂ motive operands items := by
  induction operands generalizing items with
  | nil =>
    cases h
    exact .nil
  | cons raw rest ih =>
    obtain ⟨hraw, hrest⟩ := List.forall_mem_cons.mp hoperands
    rw [compileItems, bind_eq_ok] at h
    obtain ⟨item, hitem, h⟩ := h
    obtain ⟨items, hitems, h⟩ := bind_eq_ok.mp h
    cases h
    exact .cons (hraw item hitem) (ih hrest hitems)

theorem compiled_induction {motive : Json → Condition → Prop}
    (leaf : ∀ {raw operator operands c}, raw.Applies operator.name operands →
      nests operator.name = false → (∀ nested, applyOperator operator operands nested = .ok c) →
      motive raw c)
    (join : ∀ {raw operator operands items c}, raw.Applies operator.name operands →
      nests operator.name = true → operator.arity.admits operands.length = true →
      List.Forall₂ motive operands items → Joins operator items c → motive raw c)
    (h : compileAt depth raw = .ok c) : motive raw c := by
  -- induction along what compiles: either nothing is nested in it, or an operator joins what its
  -- operands compile to. Neither case speaks of a depth
  induction raw using Json.operand_induction generalizing depth c with
  | step raw ih =>
    obtain ⟨hdepth, operator, operands, happlies, h⟩ := operation_of_compileAt h
    cases hnests : nests operator.name with
    | false =>
      -- such an operator never looks at what would be nested in it
      refine leaf happlies hnests fun nested => ?_
      rw [← h]
      exact applyOperator_of_not_nests hnests operands nested _
    | true =>
      have harity := admits_of_applyOperator h
      obtain ⟨items, hitems, hjoins⟩ :=
        (applyOperator_eq_ok_of_nests harity (fun _ => compileItems_length) hnests).mp h
      refine join happlies hnests harity ?_ hjoins
      exact forall₂_of_compileItems
        (fun operand hoperand _ hitem => ih _ _ happlies operand hoperand hitem) hitems

/-! ## Parts and depth -/

theorem proper_of_forall₂ (h : List.Forall₂ (fun _ item => ∀ part ∈ item.parts, part.Proper)
    operands items) : ∀ part ∈ itemsParts items, part.Proper := by
  induction h with
  | nil => exact List.forall_mem_nil _
  | cons hitem _ ih =>
    rw [itemsParts]
    exact List.forall_mem_append.mpr ⟨hitem, ih⟩

theorem proper_of_compileAt (h : compileAt depth raw = .ok c) : ∀ part ∈ c.parts, part.Proper := by
  refine compiled_induction (motive := fun _ c => ∀ part ∈ c.parts, part.Proper) ?leaf ?join h
  case leaf =>
    intro raw operator operands c _ hnests hc
    obtain ⟨_, hparts, hproper⟩ := leaf_of_applyOperator hnests (hc (.ok []))
    rw [hparts]
    exact List.forall_mem_singleton.mpr hproper
  case join =>
    intro raw operator operands items c _ hnests harity hoperands hjoins
    rw [hjoins.parts_eq]
    -- as many conditions are joined as there are operands, and none of the three takes no operand
    refine List.forall_mem_cons.mpr ⟨hjoins.proper ?_, proper_of_forall₂ hoperands⟩
    rintro rfl
    cases hoperands
    exact not_admits_zero_of_nests hnests harity

theorem compileItems_of_forall₂
    (h : List.Forall₂ (fun operand item => ∀ depth, compileAt depth operand =
      if depth + item.depth ≤ maxConditionDepth + 1 then .ok item else .error .tooDeep)
      operands items)
    (hdepth : depth ≤ maxConditionDepth + 1) :
    compileItems depth operands =
      if depth + itemsDepth items ≤ maxConditionDepth + 1 then .ok items else .error .tooDeep := by
  induction h with
  | nil =>
    rw [itemsDepth, Nat.add_zero, if_pos hdepth]
    rfl
  | @cons operand item rest items hitem _ ih =>
    -- the first item that does not fit ends the list, whatever comes after it
    rw [compileItems, hitem, ih, itemsDepth, ← Nat.add_max_add_left]
    by_cases hfits : depth + item.depth ≤ maxConditionDepth + 1
    · rw [if_pos hfits]
      by_cases hrest : depth + itemsDepth items ≤ maxConditionDepth + 1
      · rw [if_pos hrest, if_pos (Nat.max_le.mpr ⟨hfits, hrest⟩)]
        rfl
      · rw [if_neg hrest, if_neg fun hboth => hrest (Nat.max_le.mp hboth).2]
        rfl
    · rw [if_neg hfits, if_neg fun hboth => hfits (Nat.max_le.mp hboth).1]
      rfl

theorem compileAt_of_ok (h : compileAt depth raw = .ok c) (place : Nat) :
    compileAt place raw =
      if place + c.depth ≤ maxConditionDepth + 1 then .ok c else .error .tooDeep := by
  refine compiled_induction (motive := fun raw c => ∀ place, compileAt place raw =
    if place + c.depth ≤ maxConditionDepth + 1 then .ok c else .error .tooDeep) ?leaf ?join h place
  case leaf =>
    intro raw operator operands c happlies hnests hc place
    obtain ⟨hdepth, _, _⟩ := leaf_of_applyOperator hnests (hc (.ok []))
    rw [hdepth]
    by_cases hplace : place ≤ maxConditionDepth
    · rw [if_pos (Nat.succ_le_succ hplace), compileAt_of_operator hplace happlies, hc]
    · rw [if_neg (fun h => hplace (Nat.le_of_succ_le_succ h)),
        compileAt_of_tooDeep (Nat.not_le.mp hplace)]
  case join =>
    intro raw operator operands items c happlies hnests harity hoperands hjoins place
    rw [hjoins.depth_eq, ← Nat.add_assoc, Nat.add_right_comm]
    by_cases hplace : place ≤ maxConditionDepth
    · have hitems := compileItems_of_forall₂ hoperands (Nat.succ_le_succ hplace)
      rw [compileAt_of_operator hplace happlies]
      by_cases hfits : place + 1 + itemsDepth items ≤ maxConditionDepth + 1
      · rw [if_pos hfits]
        rw [if_pos hfits] at hitems
        exact (applyOperator_eq_ok_of_nests harity (fun _ => compileItems_length) hnests).mpr
          ⟨items, hitems, hjoins⟩
      · rw [if_neg hfits]
        rw [if_neg hfits] at hitems
        exact (applyOperator_eq_error_of_nests harity (fun _ => compileItems_length) hnests).mpr
          hitems
    · rw [compileAt_of_tooDeep (Nat.not_le.mp hplace), if_neg]
      omega

theorem depth_of_compileAt (h : compileAt depth raw = .ok c) :
    depth + c.depth ≤ maxConditionDepth + 1 := by
  by_cases hfits : depth + c.depth ≤ maxConditionDepth + 1
  · exact hfits
  · rw [compileAt_of_ok h, if_neg hfits] at h
    cases h

end

end Condition
end ApiGateway
