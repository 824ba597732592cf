import ApiGateway.Document.Value

/-! Reading records from documents: a record is a table of named fields, or a list of its fields in
order. The first problem in text order is the one reported. -/

namespace ApiGateway.Document

def readText : Read String
  | .str s => .ok s
  | doc => refuse .text doc

def readFlag : Read Bool
  | .bool b => .ok b
  | doc => refuse .flag doc

def readUnsigned : Read Nat
  | .num (.int n) => if 0 ≤ n then .ok n.toNat else .error (.data (.outOfRange n))
  | doc => refuse .unsigned doc

def readOptional {α : Type} (read : Read α) : Read (Option α)
  | .null => .ok none
  | doc => (read doc).map some

def readItems {α : Type} (read : Read α) : List Document → Except ReadError (List α)
  | [] => .ok []
  | d :: ds => do
    let v ← read d
    let vs ← readItems read ds
    .ok (v :: vs)

def readSequence {α : Type} (read : Read α) : Read (List α)
  | .list items stop => do
    let values ← readItems read items
    finish stop values
  | doc => refuse .sequence doc

structure Field (σ : Type) where
  name : String
  required : Bool
  store : Document → σ → Except ReadError σ

def Field.of {σ α : Type} (name : String) (required : Bool) (read : Read α) (put : σ → α → σ) :
    Field σ where
  name := name
  required := required
  store := fun doc record => (read doc).map (put record)

structure Record (σ : Type) where
  name : String
  blank : σ
  fields : List (Field σ)

namespace Record

variable {σ : Type}

/-- Members in text order; `seen` names the fields already stored. Unknown members are passed over,
and a repeated field is reported before its value is looked at. -/
def readMembers (fields : List (Field σ)) (seen : List String) (record : σ) :
    List (Except Stop String × Document) → Except ReadError (List String × σ)
  | [] => .ok (seen, record)
  | (key, doc) :: rest => do
    let name ← orStop key
    match fields.find? (fun field => field.name = name) with
    | none =>
      match doc.skip with
      | some s => .error (.stop s)
      | none => readMembers fields seen record rest
    | some field =>
      if seen.contains name then .error (.data (.repeatedField name))
      else do
        let record ← field.store doc record
        readMembers fields (name :: seen) record rest

def readEntries (shape : Record σ) (surplus : Surplus) (stop : Option Stop) (index : Nat)
    (record : σ) : List (Field σ) → List Document → Except ReadError σ
  | [], [] => finish stop record
  | [], _ :: _ =>
    match surplus with
    | .refused => .error (.stop .trailingText)
    | .ignored => .ok record
  | field :: fields, [] =>
    match stop with
    | some s => .error (.stop s)
    | none =>
      if field.required then
        .error (.data (.tooShort index shape.name shape.fields.length))
      else readEntries shape surplus stop (index + 1) record fields []
  | field :: fields, doc :: docs => do
    let record ← field.store doc record
    readEntries shape surplus stop (index + 1) record fields docs

def read (shape : Record σ) (surplus : Surplus) : Read σ
  | .table members stop => do
    let (seen, record) ← readMembers shape.fields [] shape.blank members
    let record ← finish stop record
    match shape.fields.find? (fun field => field.required && !seen.contains field.name) with
    | some field => .error (.data (.missingField field.name))
    | none => .ok record
  | .list items stop => readEntries shape surplus stop 0 shape.blank shape.fields items
  | doc => refuse (.record shape.name) doc

end Record
end ApiGateway.Document
