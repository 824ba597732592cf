import ApiGateway.Condition.Compile

/-! Writing conditions as nested lists; operands that name fields or hold text are strings. -/

namespace ApiGateway.Condition

def operation (operator : Operator) (operands : List Json) : Json :=
  .arr (.str operator.name :: operands)

mutual

def toJson : Condition → Json
  | .always => operation .always []
  | .never => operation .never []
  | .all items => operation .all (itemsToJson items)
  | .any items => operation .any (itemsToJson items)
  | .negate item => operation .negate [toJson item]
  | .equals field value => operation .equals [.str field.text, .str value]
  | .present field => operation .present [.str field.text]
  | .method methods => operation .method (methods.map fun m => .str m.text)
  | .pathExact path => operation .pathExact [.str path]
  | .pathPrefix start => operation .pathPrefix [.str start]

def itemsToJson : List Condition → List Json
  | [] => []
  | item :: rest => toJson item :: itemsToJson rest

end

end ApiGateway.Condition
