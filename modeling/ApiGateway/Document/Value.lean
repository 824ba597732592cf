import ApiGateway.Document.Error

/-! Reading free values from documents. -/

namespace ApiGateway.Document

inductive Surplus where
  | refused
  | ignored

/-- A table whose first member has this name stands for the value that the member spells as a JSON
text. Further down the name means nothing. -/
def embeddedName : String := "$serde_json::private::RawValue"

def embedded? : List (Except Stop String × Document) →
    Option (Document × List (Except Stop String × Document))
  | (.ok name, doc) :: rest => if name = embeddedName then some (doc, rest) else none
  | _ => none

def readEmbedded : Read String
  | .str s => .ok s
  | doc => refuse .embedded doc

def finishEmbedded (surplus : Surplus) (rest : List (Except Stop String × Document))
    (stop : Option Stop) (value : Json) : Except ReadError Json :=
  match surplus, rest, stop with
  | .ignored, _, _ => .ok value
  | .refused, _ :: _, _ => .error (.stop .trailingComma)
  | .refused, [], none => .ok value
  | .refused, [], some .noTableComma => .error (.stop .trailingText)
  | .refused, [], some s => .error (.stop s)

section

variable (parse : String → Except DataError Json) (surplus : Surplus)

mutual

/-- The value a document stands for; `parse` reads embedded texts. A later member of a repeated key
wins, and a number that is not finite becomes null. -/
def toJson : Document → Except ReadError Json
  | .null => .ok .null
  | .bool b => .ok (.bool b)
  | .num n => .ok (.num n)
  | .unbounded => .ok .null
  | .str s => .ok (.str s)
  | .list items stop => do
    let values ← itemsToJson items
    finish stop (.arr values)
  | .table members stop =>
    match embedded? members with
    | some (doc, rest) => do
      let text ← readEmbedded doc
      let value ← (parse text).mapError .data
      finishEmbedded surplus rest stop value
    | none => do
      let entries ← membersToJson members
      finish stop (.object entries)
  | .broken s _ => .error (.stop s)

def itemsToJson : List Document → Except ReadError (List Json)
  | [] => .ok []
  | d :: ds => do
    let v ← toJson d
    let vs ← itemsToJson ds
    .ok (v :: vs)

def membersToJson : List (Except Stop String × Document) → Except ReadError (List (String × Json))
  | [] => .ok []
  | (key, d) :: ms => do
    let k ← orStop key
    let v ← toJson d
    let vs ← membersToJson ms
    .ok ((k, v) :: vs)

end

end

end ApiGateway.Document
