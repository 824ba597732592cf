import ApiGateway.Document.Basic
import ApiGateway.Json.Printer
import ApiGateway.Text.Quoted

/-! What can be wrong with a document that is read for something. -/

namespace ApiGateway.Document

inductive Found where
  | null
  | bool (value : Bool)
  | num (value : Number)
  | unbounded
  | str (value : String)
  | list
  | table

inductive Expected where
  | text
  | flag
  | unsigned
  | sequence
  | embedded
  | record (name : String)

inductive DataError where
  | wrongType (found : Found) (expected : Expected)
  | outOfRange (value : Int)
  | tooShort (count : Nat) (record : String) (fields : Nat)
  | missingField (name : String)
  | repeatedField (name : String)
  | embedded (reason : Stop)

inductive ReadError where
  | stop (reason : Stop)
  | data (error : DataError)

def Found.message : Found → String
  | .null => "null"
  | .bool true => "boolean `true`"
  | .bool false => "boolean `false`"
  | .num (.int n) => "integer `" ++ String.ofList (intText n) ++ "`"
  | .num (.float x) => "floating point `" ++ String.ofList x.text ++ "`"
  | .unbounded => "floating point"
  | .str s => "string " ++ Text.quoted s
  | .list => "sequence"
  | .table => "map"

def Expected.message : Expected → String
  | .text => "a string"
  | .flag => "a boolean"
  | .unsigned => "u64"
  | .sequence => "a sequence"
  | .embedded => "raw value"
  | .record name => s!"struct {name}"

def DataError.message : DataError → String
  | .wrongType found expected =>
    "invalid type: " ++ found.message ++ ", expected " ++ expected.message
  | .outOfRange n => "invalid value: integer `" ++ String.ofList (intText n) ++ "`, expected u64"
  | .tooShort count record fields =>
    let noun := if fields = 1 then "element" else "elements"
    s!"invalid length {count}, expected struct {record} with {fields} {noun}"
  | .missingField name => s!"missing field `{name}`"
  | .repeatedField name => s!"duplicate field `{name}`"
  | .embedded reason => reason.message

def ReadError.message : ReadError → String
  | .stop reason => reason.message
  | .data e => e.message

def ReadError.embedded : ReadError → DataError
  | .stop reason => .embedded reason
  | .data e => e

abbrev Read (α : Type) := Document → Except ReadError α

/-- A value of the wrong type, or a place that cannot be read at all. Of a list or table that lies
too deep one can still tell what it is. -/
def refuse {α : Type} (expected : Expected) (doc : Document) : Except ReadError α :=
  let wrong (found : Found) : Except ReadError α := .error (.data (.wrongType found expected))
  match doc with
  | .null => wrong .null
  | .bool b => wrong (.bool b)
  | .num n => wrong (.num n)
  | .unbounded => wrong .unbounded
  | .str s => wrong (.str s)
  | .list _ _ => wrong .list
  | .table _ _ => wrong .table
  | .broken .listTooDeep _ => wrong .list
  | .broken .tableTooDeep _ => wrong .table
  | .broken s _ => .error (.stop s)

def orStop {α : Type} (result : Except Stop α) : Except ReadError α := result.mapError .stop

def finish {α : Type} (stop : Option Stop) (value : α) : Except ReadError α :=
  match stop with
  | some s => .error (.stop s)
  | none => .ok value

end ApiGateway.Document
