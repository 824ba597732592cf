import ApiGateway.Decimal.Binary64
import ApiGateway.Dict

/-! JSON values. Objects are dictionaries: keys in order, one entry a key. -/

namespace ApiGateway

/-- Integers stay exact as long as they fit 64 bits, signed or unsigned; every other number is a
binary value. -/
inductive Number where
  | int (value : Int)
  | float (value : Decimal.Binary64)
deriving DecidableEq, Repr

def Number.fits (n : Int) : Bool := -9223372036854775808 ≤ n && n < 18446744073709551616

inductive Json where
  | null
  | bool (value : Bool)
  | num (value : Number)
  | str (value : String)
  | arr (items : List Json)
  | obj (members : List (String × Json))
deriving Inhabited

namespace Json

def nat (n : Nat) : Json := .num (.int n)

/-- An object; a later member of a repeated key wins. -/
def object (members : List (String × Json)) : Json := .obj (Dict.ofList members)

def ofOption (value : Option String) : Json :=
  match value with
  | some s => .str s
  | none => .null

def member? (key : String) : Json → Option Json
  | .obj members => Dict.find? key members
  | _ => none

def text? : Json → Option String
  | .str s => some s
  | _ => none

def unsigned? : Json → Option Nat
  | .num (.int n) => if 0 ≤ n then some n.toNat else none
  | _ => none

end Json
end ApiGateway
