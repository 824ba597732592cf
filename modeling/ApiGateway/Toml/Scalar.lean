import ApiGateway.Document.Basic
import ApiGateway.Toml.Text

/-! TOML scalars: booleans, numbers and date-times. -/

namespace ApiGateway.Toml

def word? (word : List Char) (chars : List Char) : Option (List Char) :=
  if word.isPrefixOf chars then some (chars.drop word.length) else none

/-! ## Numbers -/

def moreDigits (isDigit : Char → Bool) : List Char → List Char × List Char
  | '_' :: d :: rest =>
    if isDigit d then
      let (digits, rest) := moreDigits isDigit rest
      (d :: digits, rest)
    else ([], '_' :: d :: rest)
  | c :: rest =>
    if isDigit c then
      let (digits, rest) := moreDigits isDigit rest
      (c :: digits, rest)
    else ([], c :: rest)
  | [] => ([], [])

def digits? (isDigit : Char → Bool) : Reader (List Char)
  | c :: rest =>
    if isDigit c then
      let (digits, rest) := moreDigits isDigit rest
      some (c :: digits, rest)
    else none
  | [] => none

def sign : List Char → Bool × List Char
  | '+' :: rest => (false, rest)
  | '-' :: rest => (true, rest)
  | chars => (false, chars)

def decimal? (chars : List Char) : Option ((Bool × List Char) × List Char) :=
  match sign chars with
  | (negative, '0' :: rest) => some ((negative, ['0']), rest)
  | (negative, chars) => (digits? Char.isDigit chars).map fun (ds, rest) => ((negative, ds), rest)

def numberOf (base : Nat) (digits : List Char) : Nat :=
  digits.foldl (fun n c => base * n + (Text.hexValue? c).getD 0) 0

def integer (n : Int) : Option Document :=
  if -9223372036854775808 ≤ n && n < 9223372036854775808 then some (.num (.int n)) else none

def based? (base : Nat) (isDigit : Char → Bool) (chars : List Char) :
    Option (Document × List Char) := do
  let (digits, rest) ← digits? isDigit chars
  let doc ← integer (numberOf base digits)
  some (doc, rest)

def integer? : Reader Document
  | '0' :: 'x' :: rest => based? 16 (fun c => (Text.hexValue? c).isSome) rest
  | '0' :: 'o' :: rest => based? 8 (fun c => '0' ≤ c && c ≤ '7') rest
  | '0' :: 'b' :: rest => based? 2 (fun c => c = '0' || c = '1') rest
  | chars => do
    let ((negative, digits), rest) ← decimal? chars
    let n : Int := numberOf 10 digits
    let doc ← integer (if negative then -n else n)
    some (doc, rest)

def fraction? : Reader (List Char)
  | '.' :: rest => digits? Char.isDigit rest
  | _ => none

def exponent? : Reader Int
  | e :: rest =>
    if e = 'e' || e = 'E' then do
      let (negative, rest) := sign rest
      let (digits, rest) ← digits? Char.isDigit rest
      let n : Int := numberOf 10 digits
      some (if negative then -n else n, rest)
    else none
  | [] => none

/-- A value past the range is refused above it, and read as infinite below it. -/
def floatOf (negative : Bool) (digits : List Char) (exponent : Int) : Option Document :=
  match Decimal.Binary64.ofDecimal negative (numberOf 10 digits) exponent with
  | some x => some (.num (.float x))
  | none => if negative then some .unbounded else none

def finiteFloat? (chars : List Char) : Option (Document × List Char) := do
  let ((negative, whole), rest) ← decimal? chars
  match fraction? rest with
  | some (part, rest) =>
    let (exponent, rest) := (exponent? rest).getD (0, rest)
    let doc ← floatOf negative (whole ++ part) (exponent - part.length)
    some (doc, rest)
  | none =>
    let (exponent, rest) ← exponent? rest
    let doc ← floatOf negative whole exponent
    some (doc, rest)

def specialFloat? (chars : List Char) : Option (Document × List Char) :=
  let rest := (sign chars).2
  ((word? ['i', 'n', 'f'] rest).or (word? ['n', 'a', 'n'] rest)).map fun rest => (.unbounded, rest)

/-! ## Dates and times -/

def field? (count : Nat) (chars : List Char) : Option ((List Char × Nat) × List Char) :=
  let digits := chars.take count
  if digits.length = count && digits.all Char.isDigit then
    some ((digits, numberOf 10 digits), chars.drop count)
  else none

def mark? (c : Char) : List Char → Option (List Char)
  | d :: rest => if d = c then some rest else none
  | [] => none

def daysIn (year month : Nat) : Nat :=
  if month = 2 then
    if year % 4 = 0 && (year % 100 ≠ 0 || year % 400 = 0) then 29 else 28
  else if month = 4 || month = 6 || month = 9 || month = 11 then 30
  else 31

def date? (chars : List Char) : Option (List Char × List Char) := do
  let ((y, year), rest) ← field? 4 chars
  let rest ← mark? '-' rest
  let ((m, month), rest) ← field? 2 rest
  let rest ← mark? '-' rest
  let ((d, day), rest) ← field? 2 rest
  if 1 ≤ month && month ≤ 12 && 1 ≤ day && day ≤ daysIn year month then
    some (y ++ '-' :: m ++ '-' :: d, rest)
  else none

def secondFraction (chars : List Char) : List Char × List Char :=
  match chars with
  | '.' :: rest =>
    let digits := rest.takeWhile Char.isDigit
    if digits.isEmpty then ([], chars)
    else
      let kept := ((digits.take 9).reverse.dropWhile (· = '0')).reverse
      (if kept.isEmpty then [] else '.' :: kept, rest.dropWhile Char.isDigit)
  | _ => ([], chars)

def time? (chars : List Char) : Option (List Char × List Char) := do
  let ((h, hour), rest) ← field? 2 chars
  let rest ← mark? ':' rest
  let ((m, minute), rest) ← field? 2 rest
  let rest ← mark? ':' rest
  let ((s, second), rest) ← field? 2 rest
  if hour ≤ 23 && minute ≤ 59 && second ≤ 60 then
    let (fraction, rest) := secondFraction rest
    some (h ++ ':' :: m ++ ':' :: s ++ fraction, rest)
  else none

def offset? : Reader (List Char)
  | c :: rest =>
    if c = 'Z' || c = 'z' then some (['Z'], rest)
    else if c = '+' || c = '-' then do
      let ((h, hour), rest) ← field? 2 rest
      let rest ← mark? ':' rest
      let ((m, minute), rest) ← field? 2 rest
      if hour ≤ 23 && minute ≤ 59 then
        let c := if hour = 0 && minute = 0 then '+' else c
        some (c :: h ++ ':' :: m, rest)
      else none
    else none
  | [] => none

def timeAfterDate? : Reader (List Char)
  | c :: rest =>
    if c = 'T' || c = 't' || c = ' ' then do
      let (time, rest) ← time? rest
      let (offset, rest) := (offset? rest).getD ([], rest)
      some ('T' :: time ++ offset, rest)
    else none
  | [] => none

def dateTime? (chars : List Char) : Option (List Char × List Char) :=
  match date? chars with
  | some (date, rest) =>
    let (time, rest) := (timeAfterDate? rest).getD ([], rest)
    some (date ++ time, rest)
  | none => time? chars

/-- A date-time stands in the document as a table with this one member. -/
def dateTimeKey : String := "$__toml_private_datetime"

def dateTimeDocument (chars : List Char) : Document :=
  .table [(.ok dateTimeKey, .str (String.ofList chars))] none

/-! ## Any scalar -/

def scalar? (chars : List Char) : Option (Document × List Char) :=
  match string? chars with
  | some (s, rest) => some (.str s, rest)
  | none =>
    match word? ['t', 'r', 'u', 'e'] chars with
    | some rest => some (.bool true, rest)
    | none =>
      match word? ['f', 'a', 'l', 's', 'e'] chars with
      | some rest => some (.bool false, rest)
      | none =>
        match dateTime? chars with
        | some (text, rest) => some (dateTimeDocument text, rest)
        | none => ((finiteFloat? chars).or (specialFloat? chars)).or (integer? chars)

end ApiGateway.Toml
