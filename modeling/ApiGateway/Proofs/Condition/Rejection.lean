import ApiGateway.Proofs.Condition.Operands

/-! Compiling fails exactly with the error of the first node that has one. -/

namespace ApiGateway

namespace Json

variable {raw : Json} {name : String} {operands : List Json} {depth : Nat}

theorem Applies.unique {name' : String} {operands' : List Json} (h : raw.Applies name operands)
    (h' : raw.Applies name' operands') : name = name' ∧ operands = operands' := by
  cases h <;> cases h' <;> exact ⟨rfl, rfl⟩

theorem operand_induction {motive : Json → Prop}
    (step : ∀ raw : Json, (∀ name operands, raw.Applies name operands →
      ∀ operand ∈ operands, motive operand) → motive raw) (raw : Json) : motive raw := by
  induction hsize : sizeOf raw using Nat.strongRecOn generalizing raw with
  | ind size ih =>
    apply step
    intro name operands happlies operand hoperand
    refine ih (sizeOf operand) ?_ operand rfl
    cases happlies with
    | bare => cases hoperand
    | list =>
      have hlt := List.sizeOf_lt_of_mem hoperand
      simp only [arr.sizeOf_spec, List.cons.sizeOf_spec] at hsize
      omega

theorem nodes_of_applies (h : raw.Applies name operands) (depth : Nat) :
    raw.nodes depth =
      ⟨depth, raw⟩ :: if nests name then operandNodes (depth + 1) operands else [] := by
  cases h with
  | bare =>
    rw [nodes]
    · simp only [operandNodes, ite_self]
    · nofun
  | list => rw [nodes]

theorem nodes_of_not_applies (h : ∀ name operands, ¬ raw.Applies name operands) (depth : Nat) :
    raw.nodes depth = [⟨depth, raw⟩] := by
  rw [nodes]
  rintro name operands rfl
  exact h name operands .list

theorem operandNodes_eq_flatMap (depth : Nat) (operands : List Json) :
    operandNodes depth operands = operands.flatMap (nodes depth) := by
  induction operands with
  | nil => rfl
  | cons raw rest ih => rw [operandNodes, ih, List.flatMap_cons]

end Json

namespace Operator

variable {name : String} {operator : Operator}

theorem ofName?_name (operator : Operator) : ofName? operator.name = some operator := by
  cases operator <;> rfl

theorem name_injective {a b : Operator} (h : a.name = b.name) : a = b := by
  have hof := congrArg ofName? h
  rw [ofName?_name, ofName?_name] at hof
  exact Option.some.inj hof

theorem name_of_ofName? (h : ofName? name = some operator) : operator.name = name := by
  have hfound := List.find?_some (p := fun operator : Operator => decide (operator.name = name)) h
  exact of_decide_eq_true hfound

theorem ne_of_ofName? (h : ofName? name = none) (operator : Operator) : operator.name ≠ name := by
  rintro rfl
  rw [ofName?_name] at h
  cases h

end Operator

inductive Json.Reading (raw : Json) : Prop where
  | malformed (hshape : ∀ name operands, ¬ raw.Applies name operands)
  | unknownOperator {name operands} (happlies : raw.Applies name operands)
      (hname : Operator.ofName? name = none)
  | arity {operator : Operator} {operands} (happlies : raw.Applies operator.name operands)
      (harity : operator.arity.admits operands.length = false)
  | operation {operator : Operator} {operands} (happlies : raw.Applies operator.name operands)
      (harity : operator.arity.admits operands.length = true)

theorem Json.reading (raw : Json) : raw.Reading := by
  by_cases hshape : ∀ name operands, ¬ raw.Applies name operands
  · exact .malformed hshape
  simp only [not_forall, not_not] at hshape
  obtain ⟨name, operands, happlies⟩ := hshape
  cases hname : Operator.ofName? name with
  | none => exact .unknownOperator happlies hname
  | some operator =>
    obtain rfl := Operator.name_of_ofName? hname
    cases harity : operator.arity.admits operands.length with
    | false => exact .arity happlies harity
    | true => exact .operation happlies harity

theorem Json.nodes_eq_cons (raw : Json) (depth : Nat) :
    ∃ rest, raw.nodes depth = ⟨depth, raw⟩ :: rest := by
  cases raw.reading with
  | malformed hshape => exact ⟨_, nodes_of_not_applies hshape depth⟩
  | unknownOperator happlies | arity happlies | operation happlies =>
    exact ⟨_, nodes_of_applies happlies depth⟩

/-! ## The fault of a node -/

namespace Node

variable {node : Node} {name : String} {operator : Operator} {operands : List Json}
  {e : CompileError}

theorem offends_of_tooDeep (h : maxConditionDepth < node.depth) :
    node.Offends e ↔ e = .tooDeep := by
  constructor
  · intro hoffends
    cases hoffends with
    | tooDeep => rfl
    | malformed hdepth | unknownOperator hdepth | arity hdepth | operand hdepth =>
      exact absurd hdepth (Nat.not_le.mpr h)
  · rintro rfl
    exact .tooDeep h

theorem offends_of_not_applies (hdepth : node.depth ≤ maxConditionDepth)
    (hshape : ∀ name operands, ¬ node.raw.Applies name operands) :
    node.Offends e ↔ e = .malformed node.raw := by
  constructor
  · intro hoffends
    cases hoffends with
    | tooDeep h => exact absurd hdepth (Nat.not_le.mpr h)
    | malformed => rfl
    | unknownOperator _ happlies | arity _ happlies | operand _ happlies =>
      exact absurd happlies (hshape _ _)
  · rintro rfl
    exact .malformed hdepth hshape

theorem offends_of_unknownOperator (hdepth : node.depth ≤ maxConditionDepth)
    (happlies : node.raw.Applies name operands)
    (hname : ∀ operator : Operator, operator.name ≠ name) :
    node.Offends e ↔ e = .unknownOperator name := by
  constructor
  · intro hoffends
    cases hoffends with
    | tooDeep h => exact absurd hdepth (Nat.not_le.mpr h)
    | malformed _ hshape => exact absurd happlies (hshape _ _)
    | unknownOperator _ happlies' =>
      rw [(happlies.unique happlies').1]
    | arity _ happlies' | operand _ happlies' =>
      exact absurd (happlies'.unique happlies).1 (hname _)
  · rintro rfl
    exact .unknownOperator hdepth happlies hname

theorem offends_of_arity (hdepth : node.depth ≤ maxConditionDepth)
    (happlies : node.raw.Applies operator.name operands)
    (harity : operator.arity.admits operands.length = false) :
    node.Offends e ↔ e = .arity operator operands.length := by
  constructor
  · intro hoffends
    cases hoffends with
    | tooDeep h => exact absurd hdepth (Nat.not_le.mpr h)
    | malformed _ hshape => exact absurd happlies (hshape _ _)
    | unknownOperator _ happlies' hname =>
      exact absurd (happlies.unique happlies').1 (hname operator)
    | arity _ happlies' =>
      obtain ⟨hname, rfl⟩ := happlies'.unique happlies
      rw [Operator.name_injective hname]
    | operand _ happlies' harity' =>
      obtain ⟨hname, rfl⟩ := happlies'.unique happlies
      rw [Operator.name_injective hname, harity] at harity'
      cases harity'
  · rintro rfl
    exact .arity hdepth happlies harity

theorem offends_of_operands (hdepth : node.depth ≤ maxConditionDepth)
    (happlies : node.raw.Applies operator.name operands)
    (harity : operator.arity.admits operands.length = true) :
    node.Offends e ↔ operator.Refuses 0 operands e := by
  constructor
  · intro hoffends
    cases hoffends with
    | tooDeep h => exact absurd hdepth (Nat.not_le.mpr h)
    | malformed _ hshape => exact absurd happlies (hshape _ _)
    | unknownOperator _ happlies' hname =>
      exact absurd (happlies.unique happlies').1 (hname operator)
    | arity _ happlies' harity' =>
      obtain ⟨hname, rfl⟩ := happlies'.unique happlies
      rw [Operator.name_injective hname, harity] at harity'
      cases harity'
    | operand _ happlies' _ hrefuses =>
      obtain ⟨hname, rfl⟩ := happlies'.unique happlies
      rwa [Operator.name_injective hname] at hrefuses
  · exact fun hrefuses => .operand hdepth happlies harity hrefuses

end Node

section FirstOffence

variable {node : Node} {rest a b nodes : List Node} {e : CompileError}

theorem not_firstOffence_nil : ¬ FirstOffence [] e := by
  rintro ⟨before, node, after, hnodes, _⟩
  exact absurd hnodes (by simp)

theorem firstOffence_cons :
    FirstOffence (node :: rest) e ↔ node.Offends e ∨ node.Sound ∧ FirstOffence rest e := by
  constructor
  · rintro ⟨before, later, after, hnodes, hsound, hoffends⟩
    cases before with
    | nil =>
      obtain ⟨rfl, rfl⟩ := List.cons.inj hnodes
      exact Or.inl hoffends
    | cons first before =>
      obtain ⟨rfl, rfl⟩ := List.cons.inj hnodes
      obtain ⟨hfirst, hbefore⟩ := List.forall_mem_cons.mp hsound
      exact Or.inr ⟨hfirst, before, later, after, rfl, hbefore, hoffends⟩
  · rintro (hoffends | ⟨hsound, before, later, after, rfl, hbefore, hoffends⟩)
    · exact ⟨[], node, rest, rfl, List.forall_mem_nil _, hoffends⟩
    · exact ⟨node :: before, later, after, rfl, List.forall_mem_cons.mpr ⟨hsound, hbefore⟩,
        hoffends⟩

theorem firstOffence_cons_of_offends {fault : CompileError}
    (h : ∀ e, node.Offends e ↔ e = fault) : FirstOffence (node :: rest) e ↔ e = fault := by
  -- a node with one fault keeps those after it from being looked at
  rw [firstOffence_cons, h]
  exact or_iff_left fun hsound => hsound.1 fault ((h fault).mpr rfl)

theorem firstOffence_append :
    FirstOffence (a ++ b) e ↔ FirstOffence a e ∨ (∀ node ∈ a, node.Sound) ∧ FirstOffence b e := by
  induction a with
  | nil => simp [not_firstOffence_nil]
  | cons node rest ih =>
    rw [List.cons_append, firstOffence_cons, firstOffence_cons, ih, List.forall_mem_cons, or_assoc,
      and_or_left, and_assoc]

theorem forall_sound_iff : (∀ node ∈ nodes, node.Sound) ↔ ∀ e, ¬ FirstOffence nodes e := by
  induction nodes with
  | nil => exact iff_of_true (List.forall_mem_nil _) fun _ => not_firstOffence_nil
  | cons node rest ih =>
    rw [List.forall_mem_cons, ih]
    constructor
    · rintro ⟨hsound, hrest⟩ e hfirst
      rcases firstOffence_cons.mp hfirst with hoffends | ⟨_, hlater⟩
      · exact hsound e hoffends
      · exact hrest e hlater
    · intro h
      have hsound : node.Sound := fun e hoffends => h e (firstOffence_cons.mpr (Or.inl hoffends))
      exact ⟨hsound, fun e hlater => h e (firstOffence_cons.mpr (Or.inr ⟨hsound, hlater⟩))⟩

end FirstOffence

namespace Condition

variable {raw : Json} {name : String} {operator : Operator} {operands : List Json}
  {items : List Condition} {depth : Nat} {e : CompileError}

/-! ## What compiling does at a node -/

theorem compileAt_of_tooDeep (h : maxConditionDepth < depth) (raw : Json) :
    compileAt depth raw = .error .tooDeep := by
  unfold compileAt
  rw [if_pos h]

theorem compileAt_of_not_applies (hdepth : depth ≤ maxConditionDepth)
    (hshape : ∀ name operands, ¬ raw.Applies name operands) :
    compileAt depth raw = .error (.malformed raw) := by
  unfold compileAt
  rw [if_neg (Nat.not_lt.mpr hdepth)]
  split
  next name => exact absurd .bare (hshape name [])
  next name operands => exact absurd .list (hshape name operands)
  next => rfl

theorem compileAt_of_applies (hdepth : depth ≤ maxConditionDepth)
    (happlies : raw.Applies name operands) :
    compileAt depth raw = applyName name operands (compileItems (depth + 1) operands) := by
  cases happlies with
  | bare =>
    rw [compileAt, if_neg (Nat.not_lt.mpr hdepth)]
    rfl
  | list => rw [compileAt, if_neg (Nat.not_lt.mpr hdepth)]

theorem compileAt_of_unknownOperator (hdepth : depth ≤ maxConditionDepth)
    (happlies : raw.Applies name operands) (hname : Operator.ofName? name = none) :
    compileAt depth raw = .error (.unknownOperator name) := by
  rw [compileAt_of_applies hdepth happlies, applyName, hname]

theorem compileAt_of_operator (hdepth : depth ≤ maxConditionDepth)
    (happlies : raw.Applies operator.name operands) :
    compileAt depth raw = applyOperator operator operands (compileItems (depth + 1) operands) := by
  rw [compileAt_of_applies hdepth happlies, applyName, Operator.ofName?_name]

theorem applyOperator_of_arity {nested : Except CompileError (List Condition)}
    (harity : operator.arity.admits operands.length = false) :
    applyOperator operator operands nested = .error (.arity operator operands.length) := by
  unfold applyOperator
  rw [harity]
  rfl

theorem compileItems_length (h : compileItems depth operands = .ok items) :
    items.length = operands.length := by
  induction operands generalizing items with
  | nil =>
    cases h
    rfl
  | cons raw rest ih =>
    rw [compileItems, bind_eq_ok] at h
    obtain ⟨item, _, h⟩ := h
    obtain ⟨items, hitems, h⟩ := bind_eq_ok.mp h
    cases h
    rw [List.length_cons, List.length_cons, ih hitems]

theorem compileItems_eq_error
    (hoperands : ∀ operand ∈ operands, ∀ depth e,
      compileAt depth operand = .error e ↔ FirstOffence (operand.nodes depth) e) :
    compileItems depth operands = .error e ↔ FirstOffence (Json.operandNodes depth operands) e := by
  induction operands with
  | nil => exact iff_of_false nofun not_firstOffence_nil
  | cons raw rest ih =>
    obtain ⟨hraw, hrest⟩ := List.forall_mem_cons.mp hoperands
    rw [Json.operandNodes, firstOffence_append, forall_sound_iff, ← ih hrest, ← hraw, compileItems,
      bind_eq_error]
    simp only [bind_eq_error, reduceCtorEq, and_false, exists_false, or_false, ← hraw]
    rw [exists_and_right, exists_ok_iff]

theorem compileAt_eq_error :
    compileAt depth raw = .error e ↔ FirstOffence (raw.nodes depth) e := by
  induction raw using Json.operand_induction generalizing depth e with
  | step raw ih =>
    rcases Nat.lt_or_ge maxConditionDepth depth with hdeep | hdepth
    · obtain ⟨rest, hnodes⟩ := raw.nodes_eq_cons depth
      rw [compileAt_of_tooDeep hdeep, Except.error.injEq, hnodes,
        firstOffence_cons_of_offends fun _ => Node.offends_of_tooDeep hdeep]
      exact eq_comm
    · cases raw.reading with
      | malformed hshape =>
        rw [compileAt_of_not_applies hdepth hshape, Except.error.injEq,
          Json.nodes_of_not_applies hshape,
          firstOffence_cons_of_offends fun _ => Node.offends_of_not_applies hdepth hshape]
        exact eq_comm
      | unknownOperator happlies hname =>
        rw [compileAt_of_unknownOperator hdepth happlies hname, Except.error.injEq,
          Json.nodes_of_applies happlies,
          firstOffence_cons_of_offends fun _ =>
            Node.offends_of_unknownOperator hdepth happlies (Operator.ne_of_ofName? hname)]
        exact eq_comm
      | arity happlies harity =>
        rw [compileAt_of_operator hdepth happlies, applyOperator_of_arity harity,
          Except.error.injEq, Json.nodes_of_applies happlies,
          firstOffence_cons_of_offends fun _ => Node.offends_of_arity hdepth happlies harity]
        exact eq_comm
      | @operation operator operands happlies harity =>
        -- either nothing is nested in the node, or it refuses no operand; so its own faults and
        -- those of the nodes below never meet
        have hnode : ∀ e, Node.Offends ⟨depth, raw⟩ e ↔ operator.Refuses 0 operands e :=
          fun _ => Node.offends_of_operands hdepth happlies harity
        rw [compileAt_of_operator hdepth happlies,
          applyOperator_eq_error harity fun _ => compileItems_length,
          compileItems_eq_error fun operand hoperand _ _ => ih _ _ happlies operand hoperand,
          Json.nodes_of_applies happlies, firstOffence_cons, Node.Sound]
        simp only [hnode]
        cases hnests : nests operator.name with
        | false => simp [not_firstOffence_nil]
        | true => simp [Operator.not_refuses_of_nests hnests]

end Condition

end ApiGateway
