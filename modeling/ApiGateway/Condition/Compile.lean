import ApiGateway.Condition.Basic
import ApiGateway.Json.Printer

/-! Compiling conditions from nested lists: an operator's name, then its operands. -/

namespace ApiGateway

inductive Arity where
  | none
  | one
  | two
  | some
deriving DecidableEq

namespace Arity

def message : Arity → String
  | .none => "no"
  | .one => "exactly 1"
  | .two => "exactly 2"
  | .some => "at least 1"

def admits (count : Nat) : Arity → Bool
  | .none => count = 0
  | .one => count = 1
  | .two => count = 2
  | .some => 1 ≤ count

end Arity

inductive Operator where
  | always
  | never
  | all
  | any
  | negate
  | equals
  | present
  | method
  | pathExact
  | pathPrefix
deriving DecidableEq

namespace Operator

def every : List Operator :=
  [.always, .never, .all, .any, .negate, .equals, .present, .method, .pathExact, .pathPrefix]

def name : Operator → String
  | .always => "always"
  | .never => "never"
  | .all => "and"
  | .any => "or"
  | .negate => "not"
  | .equals => "equals"
  | .present => "exists"
  | .method => "method"
  | .pathExact => "pathExact"
  | .pathPrefix => "pathPrefix"

def arity : Operator → Arity
  | .always => .none
  | .never => .none
  | .all => .some
  | .any => .some
  | .negate => .one
  | .equals => .two
  | .present => .one
  | .method => .some
  | .pathExact => .one
  | .pathPrefix => .one

def ofName? (name : String) : Option Operator := every.find? fun operator => operator.name = name

end Operator

inductive OperandFault where
  | notText (value : Json)
  | notLiteral (value : Json)
  | notMethod (name : String)

inductive CompileError where
  | unknownOperator (name : String)
  | arity (operator : Operator) (found : Nat)
  | operand (operator : Operator) (fault : OperandFault)
  | unknownField (selector : String)
  | tooDeep
  | malformed (raw : Json)

def maxConditionDepth : Nat := 32

def OperandFault.message : OperandFault → String
  | .notText value => "expected a string, got " ++ value.text
  | .notLiteral value => "expected a string, number or boolean literal, got " ++ value.text
  | .notMethod name => s!"\"{name}\" is not an HTTP method"

def CompileError.message : CompileError → String
  | .unknownOperator name => s!"unknown condition operator \"{name}\""
  | .arity operator found =>
    "operator \"" ++ operator.name ++ "\" expects " ++ operator.arity.message ++
      s!" operand(s), got {found}"
  | .operand operator fault => "operator \"" ++ operator.name ++ "\": " ++ fault.message
  | .unknownField selector => s!"unknown field selector \"{selector}\""
  | .tooDeep => s!"condition nesting exceeds maximum depth of {maxConditionDepth}"
  | .malformed raw =>
    "condition must be an operator name or an [operator, operands...] array, got " ++ raw.text

namespace Condition

def textOperand (operator : Operator) : Json → Except CompileError String
  | .str s => .ok s
  | value => .error (.operand operator (.notText value))

def fieldOperand (operator : Operator) (raw : Json) : Except CompileError Field := do
  let selector ← textOperand operator raw
  match Field.ofSelector? selector with
  | some field => .ok field
  | none => .error (.unknownField selector)

def literalOperand (operator : Operator) : Json → Except CompileError String
  | .str s => .ok s
  | .num n => .ok (String.ofList n.text)
  | .bool true => .ok "true"
  | .bool false => .ok "false"
  | value => .error (.operand operator (.notLiteral value))

/-- Method names are taken in upper case. -/
def methodOperand (raw : Json) : Except CompileError Method := do
  let name ← textOperand .method raw
  match Method.ofText? (String.ofList (name.toList.map Char.toUpper)) with
  | some m => .ok m
  | none => .error (.operand .method (.notMethod name))

def methodOperands : List Json → Except CompileError (List Method)
  | [] => .ok []
  | raw :: rest => do
    let m ← methodOperand raw
    let ms ← methodOperands rest
    .ok (m :: ms)

def applyOperator (operator : Operator) (operands : List Json)
    (nested : Except CompileError (List Condition)) : Except CompileError Condition :=
  if !operator.arity.admits operands.length then .error (.arity operator operands.length)
  else match operator, operands with
    | .always, _ => .ok .always
    | .never, _ => .ok .never
    | .all, _ => nested.map .all
    | .any, _ => nested.map .any
    | .negate, _ => do
      match ← nested with
      | item :: _ => .ok (.negate item)
      | [] => .error (.arity operator 0)
    | .equals, [field, value] => do
      let field ← fieldOperand operator field
      let value ← literalOperand operator value
      .ok (.equals field value)
    | .present, [field] => (fieldOperand operator field).map .present
    | .method, _ => (methodOperands operands).map .method
    | .pathExact, [path] => (textOperand operator path).map .pathExact
    | .pathPrefix, [path] => (textOperand operator path).map .pathPrefix
    | _, _ => .error (.arity operator operands.length)

def applyName (name : String) (operands : List Json)
    (nested : Except CompileError (List Condition)) : Except CompileError Condition :=
  match Operator.ofName? name with
  | some operator => applyOperator operator operands nested
  | none => .error (.unknownOperator name)

mutual

/-- Compiles a condition at a depth: the depth is checked first, then the shape, then operator,
operand count and operands. -/
def compileAt (depth : Nat) (raw : Json) : Except CompileError Condition :=
  if maxConditionDepth < depth then .error .tooDeep
  else match raw with
    | .str name => applyName name [] (.ok [])
    | .arr (.str name :: operands) =>
      applyName name operands (compileItems (depth + 1) operands)
    | raw => .error (.malformed raw)

def compileItems (depth : Nat) : List Json → Except CompileError (List Condition)
  | [] => .ok []
  | raw :: rest => do
    let item ← compileAt depth raw
    let items ← compileItems depth rest
    .ok (item :: items)

end

def compile (raw : Json) : Except CompileError Condition := compileAt 1 raw

end Condition
end ApiGateway
