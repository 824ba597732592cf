import ApiGateway.Condition.Writer
import ApiGateway.Proofs.Condition.Acceptance
import Mathlib.Logic.Function.Iterate

/-! Compiling takes back what writing does, and each negation around a value costs one level of
nesting. -/

namespace ApiGateway

namespace Condition

variable {operator : Operator} {operands : List Json} {items : List Condition} {c : Condition}
  {raw : Json} {depth : Nat}

/-! ## Rendering -/

theorem itemsToJson_eq_map (items : List Condition) : itemsToJson items = items.map toJson := by
  induction items with
  | nil => rfl
  | cons item rest ih => rw [itemsToJson, ih, List.map_cons]

theorem Joins.toJson_eq (h : Joins operator items c) :
    c.toJson = operation operator (itemsToJson items) := by
  cases h with
  | all | any | negate => simp only [toJson, itemsToJson]

theorem compileAt_operation (hdepth : depth ≤ maxConditionDepth) (operator : Operator)
    (operands : List Json) :
    compileAt depth (operation operator operands) =
      applyOperator operator operands (compileItems (depth + 1) operands) :=
  compileAt_of_operator hdepth .list

theorem compileItems_itemsToJson (h : ∀ item ∈ items, compileAt depth item.toJson = .ok item) :
    compileItems depth (itemsToJson items) = .ok items := by
  induction items with
  | nil => rfl
  | cons item rest ih =>
    obtain ⟨hitem, hrest⟩ := List.forall_mem_cons.mp h
    rw [itemsToJson, compileItems, hitem, ih hrest]
    rfl

theorem Joins.compileAt_toJson (h : Joins operator items c) (hnests : nests operator.name = true)
    (harity : operator.arity.admits items.length = true) (hproper : ∀ part ∈ c.parts, part.Proper)
    (hdepth : depth + c.depth ≤ maxConditionDepth + 1)
    (hitems : ∀ item ∈ items, ∀ depth, (∀ part ∈ item.parts, part.Proper) →
      depth + item.depth ≤ maxConditionDepth + 1 → compileAt depth item.toJson = .ok item) :
    compileAt depth c.toJson = .ok c := by
  rw [h.depth_eq] at hdepth
  rw [h.parts_eq, List.forall_mem_cons, itemsParts_eq_flatMap, List.forall_mem_flatMap] at hproper
  rw [h.toJson_eq, compileAt_operation (by omega)]
  refine (applyOperator_eq_ok_of_nests ?_ (fun _ => compileItems_length) hnests).mpr ⟨items, ?_, h⟩
  · rw [itemsToJson_eq_map, List.length_map]
    exact harity
  · apply compileItems_itemsToJson
    intro item hitem
    have hle := depth_le_itemsDepth hitem
    exact hitems item hitem (depth + 1) (hproper.2 item hitem) (by omega)

theorem fieldOperand_text {field : Field} (h : field.Named) (operator : Operator) :
    fieldOperand operator (.str field.text) = .ok field := by
  simp only [fieldOperand, textOperand, bind, Except.bind, Field.ofSelector?_text h]

theorem methodOperand_text {m : Method} (h : m.Capital) : methodOperand (.str m.text) = .ok m := by
  have hupper : String.ofList (m.text.toList.map Char.toUpper) = m.text :=
    map_eq_self fun c hc => toUpper_eq_self (h c hc)
  have hmethod : Method.ofText? m.text = some m := dif_pos m.isToken
  simp only [methodOperand, textOperand, bind, Except.bind, hupper, hmethod]

theorem methodOperands_text {methods : List Method} (h : ∀ m ∈ methods, m.Capital) :
    methodOperands (methods.map fun m => .str m.text) = .ok methods := by
  induction methods with
  | nil => rfl
  | cons m rest ih =>
    obtain ⟨hm, hrest⟩ := List.forall_mem_cons.mp h
    rw [List.map_cons, methodOperands, methodOperand_text hm, ih hrest]
    rfl

theorem compileAt_leaf (hdepth : depth + 1 ≤ maxConditionDepth + 1)
    (h : ∀ nested, applyOperator operator operands nested = .ok c) :
    compileAt depth (operation operator operands) = .ok c := by
  rw [compileAt_operation (Nat.le_of_succ_le_succ hdepth)]
  exact h _

theorem compileAt_toJson (hproper : ∀ part ∈ c.parts, part.Proper)
    (hdepth : depth + c.depth ≤ maxConditionDepth + 1) : compileAt depth c.toJson = .ok c := by
  have hself : c.Proper := hproper c (mem_parts_self c)
  induction c generalizing depth with
  | always | never => exact compileAt_leaf hdepth fun _ => rfl
  | all items ih =>
    refine Joins.compileAt_toJson .all rfl ?_ hproper hdepth ?_
    · exact decide_eq_true (List.length_pos_iff.mpr hself)
    · exact fun item hitem depth hparts hfits =>
        ih item hitem hparts hfits (hparts item (mem_parts_self item))
  | any items ih =>
    refine Joins.compileAt_toJson .any rfl ?_ hproper hdepth ?_
    · exact decide_eq_true (List.length_pos_iff.mpr hself)
    · exact fun item hitem depth hparts hfits =>
        ih item hitem hparts hfits (hparts item (mem_parts_self item))
  | negate item ih =>
    refine Joins.compileAt_toJson .negate rfl rfl hproper hdepth ?_
    refine List.forall_mem_singleton.mpr fun depth hparts hfits => ?_
    exact ih hparts hfits (hparts item (mem_parts_self item))
  | equals field value =>
    refine compileAt_leaf hdepth fun nested => ?_
    have happly : applyOperator .equals [.str field.text, .str value] nested =
        fieldOperand .equals (.str field.text) >>= fun field => .ok (.equals field value) := rfl
    rw [happly, fieldOperand_text hself]
    rfl
  | present field =>
    refine compileAt_leaf hdepth fun nested => ?_
    have happly : applyOperator .present [.str field.text] nested =
        (fieldOperand .present (.str field.text)).map .present := rfl
    rw [happly, fieldOperand_text hself]
    rfl
  | method methods =>
    refine compileAt_leaf hdepth fun nested => ?_
    have harity : Operator.method.arity.admits
        (methods.map fun m => Json.str m.text).length = true := by
      rw [List.length_map]
      exact decide_eq_true (List.length_pos_iff.mpr hself.1)
    simp only [applyOperator, harity, Bool.not_true, Bool.false_eq_true, if_false]
    rw [methodOperands_text hself.2]
    rfl
  | pathExact path | pathPrefix path => exact compileAt_leaf hdepth fun _ => rfl

end Condition

/-! ## Nesting -/

namespace Json

def nesting (raw : Json) : Nat := ((raw.nodes 1).map Node.depth).foldr max 0

def negated (raw : Json) : Json := .arr [.str "not", raw]

theorem nesting_le_iff {raw : Json} {n : Nat} :
    raw.nesting ≤ n ↔ ∀ node ∈ raw.nodes 1, node.depth ≤ n := by
  rw [nesting]
  induction raw.nodes 1 with
  | nil => exact iff_of_true (Nat.zero_le n) (List.forall_mem_nil _)
  | cons node rest ih =>
    rw [List.map_cons, List.foldr_cons, Nat.max_le, ih, List.forall_mem_cons]

end Json

namespace Condition

variable {raw : Json} {operands : List Json} {items : List Condition} {c : Condition}
  {depth n : Nat}

theorem forall_operand_depth_le_iff
    (h : List.Forall₂ (fun operand item => ∀ depth,
      (∀ node ∈ operand.nodes depth, node.depth ≤ n) ↔ depth + item.depth ≤ n + 1) operands items)
    (hdepth : depth ≤ n + 1) :
    (∀ operand ∈ operands, ∀ node ∈ operand.nodes depth, node.depth ≤ n) ↔
      depth + itemsDepth items ≤ n + 1 := by
  induction h with
  | nil => exact iff_of_true (List.forall_mem_nil _) hdepth
  | cons hitem _ ih =>
    rw [List.forall_mem_cons, hitem, ih, itemsDepth, ← Nat.add_max_add_left, Nat.max_le]

theorem forall_depth_le_iff (h : compileAt depth raw = .ok c) (place : Nat) :
    (∀ node ∈ raw.nodes place, node.depth ≤ n) ↔ place + c.depth ≤ n + 1 := by
  refine compiled_induction (motive := fun raw c => ∀ place,
    (∀ node ∈ raw.nodes place, node.depth ≤ n) ↔ place + c.depth ≤ n + 1) ?leaf ?join h place
  case leaf =>
    intro raw operator operands c happlies hnests hc place
    obtain ⟨hdepth, _, _⟩ := leaf_of_applyOperator hnests (hc (.ok []))
    rw [Json.forall_mem_nodes happlies, hdepth, Nat.add_le_add_iff_right]
    refine and_iff_left fun h => ?_
    rw [hnests] at h
    cases h
  case join =>
    intro raw operator operands items c happlies hnests _ hoperands hjoins place
    rw [Json.forall_mem_nodes happlies, hjoins.depth_eq, forall_prop_of_true hnests]
    constructor
    · rintro ⟨(hplace : place ≤ n), h⟩
      have hitems := (forall_operand_depth_le_iff hoperands (Nat.succ_le_succ hplace)).mp h
      omega
    · intro h
      have hplace : place ≤ n := by omega
      refine ⟨hplace, (forall_operand_depth_le_iff hoperands (Nat.succ_le_succ hplace)).mpr ?_⟩
      omega

theorem nesting_eq_depth (h : compile raw = .ok c) : raw.nesting = c.depth := by
  have hle : ∀ n, raw.nesting ≤ n ↔ c.depth ≤ n := by
    intro n
    rw [Json.nesting_le_iff, forall_depth_le_iff h]
    omega
  exact Nat.le_antisymm ((hle _).mpr (Nat.le_refl _)) ((hle _).mp (Nat.le_refl _))

/-! ## Negation -/

theorem compileAt_negated (hdepth : depth ≤ maxConditionDepth) (raw : Json) :
    compileAt depth raw.negated = (compileAt (depth + 1) raw).map .negate := by
  have happlies : raw.negated.Applies Operator.negate.name [raw] := .list
  rw [compileAt_of_operator hdepth happlies, compileItems]
  cases compileAt (depth + 1) raw <;> rfl

theorem compileAt_iterate_negated (h : compileAt 1 raw = .ok c) (n depth : Nat) :
    compileAt depth (Json.negated^[n] raw) =
      if depth + (n + c.depth) ≤ maxConditionDepth + 1 then .ok (negate^[n] c)
      else .error .tooDeep := by
  induction n generalizing depth with
  | zero =>
    rw [Nat.zero_add]
    exact compileAt_of_ok h depth
  | succ n ih =>
    rw [Function.iterate_succ_apply', Function.iterate_succ_apply']
    by_cases hdepth : depth ≤ maxConditionDepth
    · rw [compileAt_negated hdepth, ih, Nat.add_assoc depth, ← Nat.add_assoc 1, Nat.add_comm 1]
      split <;> rfl
    · rw [compileAt_of_tooDeep (Nat.not_le.mp hdepth), if_neg]
      omega

/-- A condition that can be written down compiles from its rendering, and so does whatever comes
out of compiling. Negations around what compiles are negations of what it compiles to, as long as
they and it are not too deep together. -/
theorem compile_inverts_rendering :
    (∀ c : Condition, c.depth ≤ maxConditionDepth → (∀ part ∈ c.parts, part.Proper) →
      compile c.toJson = .ok c) ∧
    (∀ raw c, compile raw = .ok c → compile c.toJson = .ok c) ∧
    ∀ raw c, compile raw = .ok c → ∀ n, compile (Json.negated^[n] raw) =
      if n + raw.nesting ≤ maxConditionDepth then .ok (negate^[n] c) else .error .tooDeep := by
  refine ⟨?_, ?_, ?_⟩
  · intro c hdepth hproper
    exact compileAt_toJson hproper (by omega)
  · intro raw c h
    exact compileAt_toJson (proper_of_compileAt h) (depth_of_compileAt h)
  · intro raw c h n
    rw [nesting_eq_depth h, compile, compileAt_iterate_negated h]
    simp only [Nat.add_comm 1, Nat.add_le_add_iff_right]

theorem compile_inverts_rendering_at_bound :
    compile (toJson (.all [.equals .host "a", .method [.get]])) =
      .ok (.all [.equals .host "a", .method [.get]]) ∧
    compile (Json.negated^[31] (.str "always")) = .ok (negate^[31] .always) ∧
    compile (Json.negated^[32] (.str "always")) = .error .tooDeep := by
  have hnesting : (Json.str "always").nesting = 1 := rfl
  refine ⟨compile_inverts_rendering.1 _ (by decide) ?_, ?_, ?_⟩
  · intro part hpart
    simp only [parts, itemsParts, List.append_nil, List.cons_append, List.nil_append,
      List.mem_cons, List.not_mem_nil, or_false] at hpart
    rcases hpart with rfl | rfl | rfl
    · exact List.cons_ne_nil _ _
    · trivial
    · have hcapital : Method.get.Capital := by simp [Method.Capital, Method.get]
      exact ⟨List.cons_ne_nil _ _, List.forall_mem_singleton.mpr hcapital⟩
  · rw [compile_inverts_rendering.2.2 (.str "always") .always rfl 31, hnesting]
    exact if_pos (Nat.le_refl 32)
  · rw [compile_inverts_rendering.2.2 (.str "always") .always rfl 32, hnesting]
    exact if_neg (Nat.not_succ_le_self 32)

end Condition

end ApiGateway
