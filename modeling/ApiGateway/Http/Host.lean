import ApiGateway.Text.Split

/-! The host of an authority, its port removed. -/

namespace ApiGateway

/-- A bracketed host ends at its bracket. Elsewhere the last colon and what follows it fall away if
only digits follow. -/
def hostnameChars : List Char → List Char
  | '[' :: rest =>
    match Text.splitFirst? ']' rest with
    | some (inner, _) => '[' :: (inner ++ [']'])
    | none => '[' :: rest
  | chars =>
    match Text.splitLast? ':' chars with
    | some (host, port) => if port.all Char.isDigit then host else chars
    | none => chars

def hostname (authority : String) : String := String.ofList (hostnameChars authority.toList)

end ApiGateway
