import ApiGateway.Condition.Compile
import ApiGateway.Proofs.Condition.Selector

/-! The grammar of conditions as nested lists, the nodes of such a list from the outermost inwards,
and what a single node does wrong. -/

namespace ApiGateway

inductive Json.Applies : Json → String → List Json → Prop where
  | bare {name : String} : Applies (.str name) name []
  | list {name : String} {operands : List Json} :
      Applies (.arr (.str name :: operands)) name operands

def Json.IsLiteral : Json → Prop
  | .str _ => True
  | .num _ => True
  | .bool _ => True
  | _ => False

inductive Grammatical : Json → Prop where
  | always {raw} (happlies : raw.Applies "always" []) : Grammatical raw
  | never {raw} (happlies : raw.Applies "never" []) : Grammatical raw
  | all {raw operands} (happlies : raw.Applies "and" operands) (hsome : operands ≠ [])
      (hoperands : ∀ operand ∈ operands, Grammatical operand) : Grammatical raw
  | any {raw operands} (happlies : raw.Applies "or" operands) (hsome : operands ≠ [])
      (hoperands : ∀ operand ∈ operands, Grammatical operand) : Grammatical raw
  | negate {raw operand} (happlies : raw.Applies "not" [operand])
      (hoperand : Grammatical operand) : Grammatical raw
  | equals {raw selector value} (happlies : raw.Applies "equals" [.str selector, value])
      (hselector : IsSelector selector) (hvalue : value.IsLiteral) : Grammatical raw
  | present {raw selector} (happlies : raw.Applies "exists" [.str selector])
      (hselector : IsSelector selector) : Grammatical raw
  | method {raw names} (happlies : raw.Applies "method" (names.map .str)) (hsome : names ≠ [])
      (hnames : ∀ name ∈ names, isToken name = true) : Grammatical raw
  | pathExact {raw path} (happlies : raw.Applies "pathExact" [.str path]) : Grammatical raw
  | pathPrefix {raw start} (happlies : raw.Applies "pathPrefix" [.str start]) : Grammatical raw

/-! ## Nodes -/

structure Node where
  depth : Nat
  raw : Json

def nests (name : String) : Bool := name = "and" || name = "or" || name = "not"

namespace Json

mutual

/-- A condition and those nested in it, each before its operands and these from left to right. -/
def nodes (depth : Nat) : Json → List Node
  | .arr (.str name :: operands) =>
    ⟨depth, .arr (.str name :: operands)⟩ ::
      if nests name then operandNodes (depth + 1) operands else []
  | raw => [⟨depth, raw⟩]

def operandNodes (depth : Nat) : List Json → List Node
  | [] => []
  | raw :: rest => nodes depth raw ++ operandNodes depth rest

end

end Json

/-! ## Faults of a node -/

inductive OperandKind where
  | condition
  | selector
  | literal
  | method
  | text

namespace OperandKind

def Accepts : OperandKind → Json → Prop
  | .condition, _ => True
  | .selector, raw => ∃ s, raw = .str s ∧ IsSelector s
  | .literal, raw => raw.IsLiteral
  | .method, raw => ∃ s, raw = .str s ∧ isToken s = true
  | .text, raw => ∃ s, raw = .str s

def refusal (operator : Operator) : OperandKind → Json → CompileError
  | .selector, .str s => .unknownField s
  | .method, .str s => .operand operator (.notMethod s)
  | .literal, raw => .operand operator (.notLiteral raw)
  | _, raw => .operand operator (.notText raw)

end OperandKind

namespace Operator

def kind : Operator → Nat → OperandKind
  | .equals, 0 => .selector
  | .equals, _ => .literal
  | .present, _ => .selector
  | .method, _ => .method
  | .pathExact, _ => .text
  | .pathPrefix, _ => .text
  | _, _ => .condition

inductive Refuses (operator : Operator) : Nat → List Json → CompileError → Prop where
  | here {index operand rest} (hrefused : ¬ (operator.kind index).Accepts operand) :
      Refuses operator index (operand :: rest) ((operator.kind index).refusal operator operand)
  | later {index operand rest e} (haccepts : (operator.kind index).Accepts operand)
      (hrest : Refuses operator (index + 1) rest e) : Refuses operator index (operand :: rest) e

end Operator

namespace Node

/-- What is wrong with a node itself: its depth comes first, then its shape, then the operator's
name and the number of operands, then the operands in order. -/
inductive Offends (node : Node) : CompileError → Prop where
  | tooDeep (hdepth : maxConditionDepth < node.depth) : Offends node .tooDeep
  | malformed (hdepth : node.depth ≤ maxConditionDepth)
      (hshape : ∀ name operands, ¬ node.raw.Applies name operands) :
      Offends node (.malformed node.raw)
  | unknownOperator {name operands} (hdepth : node.depth ≤ maxConditionDepth)
      (happlies : node.raw.Applies name operands)
      (hname : ∀ operator : Operator, operator.name ≠ name) :
      Offends node (.unknownOperator name)
  | arity {operator : Operator} {operands} (hdepth : node.depth ≤ maxConditionDepth)
      (happlies : node.raw.Applies operator.name operands)
      (harity : operator.arity.admits operands.length = false) :
      Offends node (.arity operator operands.length)
  | operand {operator : Operator} {operands e} (hdepth : node.depth ≤ maxConditionDepth)
      (happlies : node.raw.Applies operator.name operands)
      (harity : operator.arity.admits operands.length = true)
      (hrefuses : operator.Refuses 0 operands e) : Offends node e

def Sound (node : Node) : Prop := ∀ e, ¬ node.Offends e

end Node

def FirstOffence (nodes : List Node) (e : CompileError) : Prop :=
  ∃ before node after, nodes = before ++ node :: after ∧
    (∀ earlier ∈ before, earlier.Sound) ∧ node.Offends e

end ApiGateway
