import ApiGateway.Proofs.Condition.Parts

/-! Compiling accepts the grammar, up to the depth that is allowed, and nothing else. -/

namespace ApiGateway

namespace Operator

variable {operator : Operator} {index : Nat} {operand : Json} {rest operands : List Json}

theorem forall_not_refuses_cons :
    (∀ e, ¬ operator.Refuses index (operand :: rest) e) ↔
      (operator.kind index).Accepts operand ∧ ∀ e, ¬ operator.Refuses (index + 1) rest e := by
  constructor
  · intro h
    have haccepts : (operator.kind index).Accepts operand := by
      by_cases haccepts : (operator.kind index).Accepts operand
      · exact haccepts
      · exact absurd (.here haccepts) (h _)
    exact ⟨haccepts, fun e hrest => h e (.later haccepts hrest)⟩
  · rintro ⟨haccepts, hrest⟩ e hrefuses
    cases hrefuses with
    | here hrefused => exact hrefused haccepts
    | later _ hlater => exact hrest e hlater

theorem forall_not_refuses_singleton :
    (∀ e, ¬ operator.Refuses index [operand] e) ↔ (operator.kind index).Accepts operand := by
  rw [forall_not_refuses_cons]
  exact and_iff_left fun _ => not_refuses_nil

theorem forall_not_refuses_method :
    (∀ e, ¬ Operator.method.Refuses index operands e) ↔
      ∃ names : List String, operands = names.map .str ∧ ∀ name ∈ names, isToken name = true := by
  induction operands generalizing index with
  | nil => exact iff_of_true (fun _ => not_refuses_nil) ⟨[], rfl, List.forall_mem_nil _⟩
  | cons operand rest ih =>
    rw [forall_not_refuses_cons, ih]
    constructor
    · rintro ⟨⟨name, rfl, hname⟩, names, rfl, hnames⟩
      exact ⟨name :: names, rfl, List.forall_mem_cons.mpr ⟨hname, hnames⟩⟩
    · rintro ⟨names, hoperands, hnames⟩
      obtain ⟨name, names, rfl, rfl, rfl⟩ := List.map_eq_cons_iff.mp hoperands.symm
      obtain ⟨hname, hnames⟩ := List.forall_mem_cons.mp hnames
      exact ⟨⟨name, rfl, hname⟩, names, rfl, hnames⟩

end Operator

section

variable {raw : Json} {operator : Operator} {operands : List Json} {depth : Nat}

/-! ## The grammar, an operator at a time -/

theorem Grammatical.operation (h : Grammatical raw) :
    ∃ (operator : Operator) (operands : List Json), raw.Applies operator.name operands ∧
      operator.arity.admits operands.length = true ∧ (∀ e, ¬ operator.Refuses 0 operands e) ∧
      (nests operator.name = true → ∀ operand ∈ operands, Grammatical operand) := by
  cases h with
  | always happlies => exact ⟨.always, [], happlies, rfl, fun _ => Operator.not_refuses_nil, nofun⟩
  | never happlies => exact ⟨.never, [], happlies, rfl, fun _ => Operator.not_refuses_nil, nofun⟩
  | all happlies hsome hoperands =>
    exact ⟨.all, _, happlies, decide_eq_true (List.length_pos_iff.mpr hsome),
      fun _ => Operator.not_refuses_of_nests rfl, fun _ => hoperands⟩
  | any happlies hsome hoperands =>
    exact ⟨.any, _, happlies, decide_eq_true (List.length_pos_iff.mpr hsome),
      fun _ => Operator.not_refuses_of_nests rfl, fun _ => hoperands⟩
  | negate happlies hoperand =>
    exact ⟨.negate, _, happlies, rfl, fun _ => Operator.not_refuses_of_nests rfl,
      fun _ => List.forall_mem_singleton.mpr hoperand⟩
  | equals happlies hselector hvalue =>
    exact ⟨.equals, _, happlies, rfl, Operator.forall_not_refuses_cons.mpr
      ⟨⟨_, rfl, hselector⟩, Operator.forall_not_refuses_singleton.mpr hvalue⟩, nofun⟩
  | present happlies hselector =>
    exact ⟨.present, _, happlies, rfl,
      Operator.forall_not_refuses_singleton.mpr ⟨_, rfl, hselector⟩, nofun⟩
  | @method _ names happlies hsome hnames =>
    refine ⟨.method, _, happlies, decide_eq_true ?_,
      Operator.forall_not_refuses_method.mpr ⟨names, rfl, hnames⟩, nofun⟩
    rw [List.length_map]
    exact List.length_pos_iff.mpr hsome
  | pathExact happlies =>
    exact ⟨.pathExact, _, happlies, rfl, Operator.forall_not_refuses_singleton.mpr ⟨_, rfl⟩, nofun⟩
  | pathPrefix happlies =>
    exact ⟨.pathPrefix, _, happlies, rfl, Operator.forall_not_refuses_singleton.mpr ⟨_, rfl⟩, nofun⟩

theorem grammatical_of_operation (happlies : raw.Applies operator.name operands)
    (harity : operator.arity.admits operands.length = true)
    (hrefuses : ∀ e, ¬ operator.Refuses 0 operands e)
    (hoperands : nests operator.name = true → ∀ operand ∈ operands, Grammatical operand) :
    Grammatical raw := by
  cases operator with
  | always =>
    obtain rfl := List.length_eq_zero_iff.mp (of_decide_eq_true harity)
    exact .always happlies
  | never =>
    obtain rfl := List.length_eq_zero_iff.mp (of_decide_eq_true harity)
    exact .never happlies
  | all =>
    exact .all happlies (List.length_pos_iff.mp (of_decide_eq_true harity)) (hoperands rfl)
  | any =>
    exact .any happlies (List.length_pos_iff.mp (of_decide_eq_true harity)) (hoperands rfl)
  | negate =>
    obtain ⟨operand, rfl⟩ := List.length_eq_one_iff.mp (of_decide_eq_true harity)
    exact .negate happlies (List.forall_mem_singleton.mp (hoperands rfl))
  | equals =>
    obtain ⟨selector, value, rfl⟩ := List.length_eq_two.mp (of_decide_eq_true harity)
    obtain ⟨⟨s, rfl, hs⟩, hvalue⟩ := Operator.forall_not_refuses_cons.mp hrefuses
    exact .equals happlies hs (Operator.forall_not_refuses_singleton.mp hvalue)
  | present =>
    obtain ⟨selector, rfl⟩ := List.length_eq_one_iff.mp (of_decide_eq_true harity)
    obtain ⟨s, rfl, hs⟩ := Operator.forall_not_refuses_singleton.mp hrefuses
    exact .present happlies hs
  | method =>
    obtain ⟨names, rfl, hnames⟩ := Operator.forall_not_refuses_method.mp hrefuses
    refine .method happlies ?_ hnames
    rintro rfl
    cases harity
  | pathExact =>
    obtain ⟨path, rfl⟩ := List.length_eq_one_iff.mp (of_decide_eq_true harity)
    obtain ⟨s, rfl⟩ := Operator.forall_not_refuses_singleton.mp hrefuses
    exact .pathExact happlies
  | pathPrefix =>
    obtain ⟨path, rfl⟩ := List.length_eq_one_iff.mp (of_decide_eq_true harity)
    obtain ⟨s, rfl⟩ := Operator.forall_not_refuses_singleton.mp hrefuses
    exact .pathPrefix happlies

/-! ## Sound nodes -/

theorem Node.sound_iff {node : Node} :
    node.Sound ↔ node.depth ≤ maxConditionDepth ∧
      ∃ (operator : Operator) (operands : List Json), node.raw.Applies operator.name operands ∧
        operator.arity.admits operands.length = true ∧ ∀ e, ¬ operator.Refuses 0 operands e := by
  constructor
  · intro h
    rcases Nat.lt_or_ge maxConditionDepth node.depth with hdeep | hdepth
    · exact absurd (.tooDeep hdeep) (h _)
    refine ⟨hdepth, ?_⟩
    cases node.raw.reading with
    | malformed hshape => exact absurd (.malformed hdepth hshape) (h _)
    | unknownOperator happlies hname =>
      exact absurd (.unknownOperator hdepth happlies (Operator.ne_of_ofName? hname)) (h _)
    | arity happlies harity => exact absurd (.arity hdepth happlies harity) (h _)
    | operation happlies harity =>
      refine ⟨_, _, happlies, harity, fun e hrefuses => ?_⟩
      exact h e (.operand hdepth happlies harity hrefuses)
  · rintro ⟨hdepth, operator, operands, happlies, harity, hrefuses⟩ e hoffends
    exact hrefuses e ((Node.offends_of_operands hdepth happlies harity).mp hoffends)

theorem Json.forall_mem_nodes {p : Node → Prop} (happlies : raw.Applies operator.name operands) :
    (∀ node ∈ raw.nodes depth, p node) ↔
      p ⟨depth, raw⟩ ∧ (nests operator.name = true →
        ∀ operand ∈ operands, ∀ node ∈ operand.nodes (depth + 1), p node) := by
  rw [nodes_of_applies happlies, List.forall_mem_cons]
  refine and_congr_right fun _ => ?_
  cases nests operator.name with
  | false => exact iff_of_true (List.forall_mem_nil _) nofun
  | true =>
    rw [if_pos rfl, operandNodes_eq_flatMap, List.forall_mem_flatMap]
    exact ⟨fun h _ => h, fun h => h rfl⟩

theorem sound_nodes_iff :
    (∀ node ∈ raw.nodes depth, node.Sound) ↔
      Grammatical raw ∧ ∀ node ∈ raw.nodes depth, node.depth ≤ maxConditionDepth := by
  induction raw using Json.operand_induction generalizing depth with
  | step raw ih =>
    constructor
    · intro h
      have hdepths : ∀ node ∈ raw.nodes depth, node.depth ≤ maxConditionDepth :=
        fun node hnode => (Node.sound_iff.mp (h node hnode)).1
      obtain ⟨rest, hnodes⟩ := raw.nodes_eq_cons depth
      have hself : Node.Sound ⟨depth, raw⟩ := h _ (hnodes ▸ List.mem_cons_self)
      obtain ⟨_, operator, operands, happlies, harity, hrefuses⟩ := Node.sound_iff.mp hself
      refine ⟨grammatical_of_operation happlies harity hrefuses ?_, hdepths⟩
      intro hnests operand hoperand
      have hoperands := ((Json.forall_mem_nodes happlies).mp h).2 hnests operand hoperand
      exact ((ih _ _ happlies operand hoperand).mp hoperands).1
    · rintro ⟨hgrammatical, hdepths⟩
      obtain ⟨operator, operands, happlies, harity, hrefuses, hoperands⟩ := hgrammatical.operation
      rw [Json.forall_mem_nodes happlies] at hdepths ⊢
      refine ⟨Node.sound_iff.mpr ⟨hdepths.1, operator, operands, happlies, harity, hrefuses⟩, ?_⟩
      intro hnests operand hoperand
      exact (ih _ _ happlies operand hoperand).mpr
        ⟨hoperands hnests operand hoperand, hdepths.2 hnests operand hoperand⟩

namespace Condition

theorem exists_compileAt :
    (∃ c, compileAt depth raw = .ok c) ↔
      Grammatical raw ∧ ∀ node ∈ raw.nodes depth, node.depth ≤ maxConditionDepth := by
  rw [exists_ok_iff, ← sound_nodes_iff, forall_sound_iff]
  simp only [ne_eq, compileAt_eq_error]

theorem nonempty_of_proper {part : Condition} (h : part.Proper) :
    part ≠ .all [] ∧ part ≠ .any [] ∧ part ≠ .method [] := by
  refine ⟨?_, ?_, ?_⟩
  · rintro rfl
    exact h rfl
  · rintro rfl
    exact h rfl
  · rintro rfl
    exact h.1 rfl

/-- A value compiles exactly if it is in the grammar and none of its nodes is nested too deep. What
does not compile has the error of the first node, counted from the outermost, that offends. What
compiles is not too deep either, and has no empty list of operands. -/
theorem compile_accepts_grammar (raw : Json) :
    ((∃ c, compile raw = .ok c) ↔
      Grammatical raw ∧ ∀ node ∈ raw.nodes 1, node.depth ≤ maxConditionDepth) ∧
    (∀ e, compile raw = .error e ↔ FirstOffence (raw.nodes 1) e) ∧
    ∀ c, compile raw = .ok c → c.depth ≤ maxConditionDepth ∧
      ∀ part ∈ c.parts, part ≠ .all [] ∧ part ≠ .any [] ∧ part ≠ .method [] := by
  refine ⟨exists_compileAt, fun e => compileAt_eq_error, fun c h => ⟨?_, fun part hpart => ?_⟩⟩
  · have hdepth : 1 + c.depth ≤ maxConditionDepth + 1 := depth_of_compileAt h
    omega
  · exact nonempty_of_proper (proper_of_compileAt h part hpart)

example : compile (.arr [.str "and", .arr [.str "or", .str "sometimes"], .arr [.str "not"]]) =
    .error (.unknownOperator "sometimes") := rfl

end Condition

end

end ApiGateway
