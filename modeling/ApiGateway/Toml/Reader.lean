import ApiGateway.Toml.Scalar
import ApiGateway.Toml.Table

/-! Reading TOML text into a document. A text is read whole or not at all. -/

namespace ApiGateway.Toml

mutual

def value? (fuel depth : Nat) (chars : List Char) : Option (Document × List Char) :=
  match fuel with
  | 0 => none
  | fuel + 1 =>
    match chars with
    | '[' :: rest =>
      if depth + 1 < nestingLimit then do
        let (items, rest) ← items? fuel (depth + 1) rest
        some (.list items none, rest)
      else none
    | '\x7b' :: rest =>
      if depth + 1 < nestingLimit then
        match skipWs rest with
        | '\x7d' :: rest => some (.table [] none, rest)
        | rest => do
          let (entries, rest) ← pairs? fuel (depth + 1) [] rest
          some (entries.toDocument, rest)
      else none
    | chars => scalar? chars

def items? (fuel depth : Nat) (chars : List Char) : Option (List Document × List Char) :=
  match fuel with
  | 0 => none
  | fuel + 1 => do
    let chars ← skipGaps (chars.length + 1) chars
    match chars with
    | ']' :: rest => some ([], rest)
    | chars =>
      let (item, rest) ← value? fuel depth chars
      let rest ← skipGaps (rest.length + 1) rest
      match rest with
      | ']' :: rest => some ([item], rest)
      | ',' :: rest => do
        let (items, rest) ← items? fuel depth rest
        some (item :: items, rest)
      | _ => none

def pairs? (fuel depth : Nat) (entries : Entries) (chars : List Char) :
    Option (Entries × List Char) :=
  match fuel with
  | 0 => none
  | fuel + 1 => do
    let ((path, key), rest) ← key? chars
    let rest ← mark? '=' rest
    let (doc, rest) ← value? fuel depth (skipWs rest)
    let entries ← entries.assign path key doc
    match skipWs rest with
    | '\x7d' :: rest => some (entries, rest)
    | ',' :: rest => pairs? fuel depth entries rest
    | _ => none

end

inductive Statement where
  | blank
  | pair (path : List String) (key : String) (doc : Document)
  | table (path : List String) (key : String)
  | element (path : List String) (key : String)

def statement? (chars : List Char) : Option (Statement × List Char) :=
  match chars with
  | '#' :: _ => (lineEnd? chars).map fun rest => (.blank, rest)
  | '\n' :: rest => some (.blank, rest)
  | '\r' :: rest => (newline? ('\r' :: rest)).map fun rest => (.blank, rest)
  | '[' :: '[' :: rest => do
    let ((path, key), rest) ← key? rest
    let rest ← mark? ']' rest
    let rest ← mark? ']' rest
    let rest ← lineEnd? rest
    some (.element path key, rest)
  | '[' :: rest => do
    let ((path, key), rest) ← key? rest
    let rest ← mark? ']' rest
    let rest ← lineEnd? rest
    some (.table path key, rest)
  | chars => do
    let ((path, key), rest) ← key? chars
    let rest ← mark? '=' rest
    let rest := skipWs rest
    let (doc, rest) ← value? (2 * rest.length + 2) 0 rest
    let rest ← lineEnd? rest
    some (.pair path key doc, rest)

def statements? : Nat → List Char → Option (List Statement)
  | 0, _ => none
  | fuel + 1, chars =>
    match skipWs chars with
    | [] => some []
    | chars => do
      let (statement, rest) ← statement? chars
      let more ← statements? fuel rest
      some (statement :: more)

def build (header : List String) (entries : Entries) : List Statement → Option Entries
  | [] => some entries
  | .blank :: rest => build header entries rest
  | .pair path key doc :: rest => do
    let entries ← entries.assignUnder header path key doc
    build header entries rest
  | .table path key :: rest => do
    let entries ← entries.openTable path key
    build (path ++ [key]) entries rest
  | .element path key :: rest => do
    let entries ← entries.openElement path key
    build (path ++ [key]) entries rest

def dropMark (chars : List Char) : List Char :=
  match chars with
  | c :: rest => if c.toNat = 0xFEFF then rest else chars
  | [] => []

def document? (text : String) : Option Document := do
  let chars := dropMark text.toList
  let statements ← statements? (chars.length + 1) chars
  let entries ← build [] [] statements
  some entries.toDocument

end ApiGateway.Toml
