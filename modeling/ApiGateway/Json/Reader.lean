import ApiGateway.Document.Value
import ApiGateway.Text.Hex

/-! Reading JSON text into a document.

Every function takes the characters that are left and gives what it found together with a `Tail`:
the characters after it, or the reason why nothing after it can be read. -/

namespace ApiGateway.Json

inductive Tail where
  | rest (chars : List Char)
  | stopped (stop : Stop)

def isSpace (c : Char) : Bool := c = ' ' || c = '\n' || c = '\t' || c = '\r'

def isDigit (c : Char) : Bool := '0' ≤ c && c ≤ '9'

def skipSpace (chars : List Char) : List Char := chars.dropWhile isSpace

/-! ## Strings -/

inductive Piece where
  | char (c : Char)
  | unit (n : Nat)

def simpleEscape? (c : Char) : Option Char :=
  match c with
  | '"' => some '"'
  | '\\' => some '\\'
  | '/' => some '/'
  | 'b' => some (Char.ofNat 8)
  | 'f' => some (Char.ofNat 12)
  | 'n' => some '\n'
  | 'r' => some '\r'
  | 't' => some '\t'
  | _ => none

/-- A `\u` escape needs four bytes after it before their digits matter. -/
def brokenUnit (chars : List Char) : Stop :=
  if (chars.take 4).foldl (fun n c => n + c.utf8Size) 0 < 4 then .endInString else .noHexDigits

def scanPieces : List Char → List Piece × Tail
  | [] => ([], .stopped .endInString)
  | '"' :: rest => ([], .rest rest)
  | ['\\'] => ([], .stopped .endInString)
  | '\\' :: 'u' :: a :: b :: c :: d :: rest =>
    match Text.hexNumber? [a, b, c, d] with
    | some n =>
      let (pieces, tail) := scanPieces rest
      (.unit n :: pieces, tail)
    | none => ([], .stopped (brokenUnit (a :: b :: c :: d :: rest)))
  | '\\' :: 'u' :: rest => ([], .stopped (brokenUnit rest))
  | '\\' :: e :: rest =>
    match simpleEscape? e with
    | some c =>
      let (pieces, tail) := scanPieces rest
      (.char c :: pieces, tail)
    | none => ([], .stopped .unknownEscape)
  | c :: rest =>
    if c.toNat < 0x20 then ([], .stopped .controlCharacter)
    else
      let (pieces, tail) := scanPieces rest
      (.char c :: pieces, tail)

def isLeading (n : Nat) : Bool := 0xD800 ≤ n && n ≤ 0xDBFF

def isTrailing (n : Nat) : Bool := 0xDC00 ≤ n && n ≤ 0xDFFF

/-- Why nothing follows the first unit of a pair, if reading breaks off there: only the digits of an
escape can be at fault, for nothing but an escape is looked for. -/
def afterLeading : Option Stop → Stop
  | some .endInString => .endInString
  | some .noHexDigits => .noHexDigits
  | _ => .openPair

/-- Surrogate units count only in pairs; at the end of the pieces `stop` says why there are no
more. -/
def assemble (stop : Option Stop) : List Piece → Except Stop (List Char)
  | [] =>
    match stop with
    | some s => .error s
    | none => .ok []
  | .char c :: rest => do
    let chars ← assemble stop rest
    .ok (c :: chars)
  | [.unit n] =>
    if isTrailing n then .error .loneUnit
    else if isLeading n then .error (afterLeading stop)
    else
      match stop with
      | some s => .error s
      | none => .ok [Char.ofNat n]
  | .unit n :: .unit m :: rest =>
    if isTrailing n then .error .loneUnit
    else if isLeading n then
      if isTrailing m then do
        let chars ← assemble stop rest
        .ok (Char.ofNat (0x10000 + (n - 0xD800) * 0x400 + (m - 0xDC00)) :: chars)
      else .error .loneUnit
    else do
      let chars ← assemble stop (.unit m :: rest)
      .ok (Char.ofNat n :: chars)
  | .unit n :: rest =>
    if isTrailing n then .error .loneUnit
    else if isLeading n then .error .openPair
    else do
      let chars ← assemble stop rest
      .ok (Char.ofNat n :: chars)

def scanString (chars : List Char) : Except Stop String × Tail :=
  let (pieces, tail) := scanPieces chars
  let stop := match tail with
    | .rest _ => none
    | .stopped s => some s
  ((assemble stop pieces).map String.ofList, tail)

def readString (chars : List Char) : Document × Tail :=
  match scanString chars with
  | (.ok s, tail) => (.str s, tail)
  | (.error s, .rest rest) => (.broken s none, .rest rest)
  | (.error s, .stopped t) => (.broken s (some t), .stopped t)

/-! ## Numbers -/

structure Numeral where
  digits : List Char
  exponent : Int
  plain : Bool

def naturalOf (digits : List Char) : Nat :=
  digits.foldl (fun n c => 10 * n + (c.toNat - 0x30)) 0

/-- A number text breaks off: as a value at the end of the text it has ended, but passing over it
finds it malformed in any case. -/
def truncated (chars : List Char) : Document × Tail :=
  let read := if chars.isEmpty then Stop.endInValue else .badNumber
  (.broken read (some .badNumber), .stopped .badNumber)

def Numeral.value (negative : Bool) (n : Numeral) : Document :=
  let natural := naturalOf n.digits
  let float :=
    match Decimal.Binary64.ofDecimal negative natural n.exponent with
    | some x => Document.num (.float x)
    | none => .broken .numberTooLarge none
  if n.plain then
    if negative then
      if natural ≠ 0 && Number.fits (-(natural : Int)) then .num (.int (-(natural : Int)))
      else float
    else if Number.fits natural then .num (.int natural) else float
  else float

def readExponent (negative : Bool) (digits : List Char) (places : Nat) (chars : List Char) :
    Document × Tail :=
  let (down, chars) := match chars with
    | '+' :: rest => (false, rest)
    | '-' :: rest => (true, rest)
    | _ => (false, chars)
  let power := chars.takeWhile isDigit
  if power.isEmpty then truncated chars
  else
    let n : Int := naturalOf power
    let exponent := (if down then -n else n) - places
    (Numeral.value negative ⟨digits, exponent, false⟩, .rest (chars.dropWhile isDigit))

def readFraction (negative : Bool) (digits : List Char) (chars : List Char) : Document × Tail :=
  match chars with
  | '.' :: rest =>
    let fraction := rest.takeWhile isDigit
    let rest := rest.dropWhile isDigit
    if fraction.isEmpty then truncated rest
    else match rest with
      | 'e' :: rest => readExponent negative (digits ++ fraction) fraction.length rest
      | 'E' :: rest => readExponent negative (digits ++ fraction) fraction.length rest
      | rest =>
        (Numeral.value negative ⟨digits ++ fraction, -(fraction.length : Int), false⟩, .rest rest)
  | 'e' :: rest => readExponent negative digits 0 rest
  | 'E' :: rest => readExponent negative digits 0 rest
  | rest => (Numeral.value negative ⟨digits, 0, true⟩, .rest rest)

def readNumber (negative : Bool) (chars : List Char) : Document × Tail :=
  let digits := chars.takeWhile isDigit
  let rest := chars.dropWhile isDigit
  match digits with
  | [] => truncated chars
  | '0' :: _ :: _ => (.broken .badNumber (some .badNumber), .stopped .badNumber)
  | _ => readFraction negative digits rest

/-! ## Values -/

def stopAt (stop : Stop) : Document × Tail := (.broken stop (some stop), .stopped stop)

def readWord (value : Document) : List Char → List Char → Document × Tail
  | [], chars => (value, .rest chars)
  | _ :: _, [] => stopAt .endInValue
  | w :: ws, c :: chars => if c = w then readWord value ws chars else stopAt .noWord

def maxDepth : Nat := 127

/-- A list or table past `maxDepth` cannot be read, though it can be passed over. -/
def bounded (depth : Nat) (tooDeep : Stop) (found : Document × Tail) : Document × Tail :=
  if depth ≤ maxDepth then found
  else match found with
    | (_, .rest rest) => (.broken tooDeep none, .rest rest)
    | (_, .stopped s) => (.broken tooDeep (some s), .stopped s)

mutual

/-- The value that comes next; `fuel` bounds the characters that may be used. -/
def readValue (fuel depth : Nat) (chars : List Char) : Document × Tail :=
  match fuel with
  | 0 => stopAt .endInValue
  | fuel + 1 =>
    match skipSpace chars with
    | [] => stopAt .endInValue
    | '"' :: rest => readString rest
    | '-' :: rest => readNumber true rest
    | 'n' :: rest => readWord .null ['u', 'l', 'l'] rest
    | 't' :: rest => readWord (.bool true) ['r', 'u', 'e'] rest
    | 'f' :: rest => readWord (.bool false) ['a', 'l', 's', 'e'] rest
    | '[' :: rest =>
      bounded (depth + 1) .listTooDeep <| match skipSpace rest with
        | ']' :: rest => (.list [] none, .rest rest)
        | [] => (.list [] (some .endInList), .stopped .endInList)
        | rest =>
          let (items, stop, tail) := readItems fuel (depth + 1) rest
          (.list items stop, tail)
    | '\x7b' :: rest =>
      bounded (depth + 1) .tableTooDeep <| match skipSpace rest with
        | '\x7d' :: rest => (.table [] none, .rest rest)
        | [] => (.table [] (some .endInTable), .stopped .endInTable)
        | rest =>
          let (members, stop, tail) := readMembers fuel (depth + 1) rest
          (.table members stop, tail)
    | c :: rest => if isDigit c then readNumber false (c :: rest) else stopAt .noValue

def readItems (fuel depth : Nat) (chars : List Char) : List Document × Option Stop × Tail :=
  match fuel with
  | 0 => ([], some .endInList, .stopped .endInList)
  | fuel + 1 =>
    match readValue fuel depth chars with
    | (item, .stopped s) => ([item], none, .stopped s)
    | (item, .rest rest) =>
      match skipSpace rest with
      | ']' :: rest => ([item], none, .rest rest)
      | ',' :: rest =>
        match skipSpace rest with
        | ']' :: _ =>
          let (last, tail) := stopAt .trailingComma
          ([item, last], none, tail)
        | rest =>
          let (items, stop, tail) := readItems fuel depth rest
          (item :: items, stop, tail)
      | [] => ([item], some .endInList, .stopped .endInList)
      | _ => ([item], some .noListComma, .stopped .noListComma)

def readMembers (fuel depth : Nat) (chars : List Char) :
    List (Except Stop String × Document) × Option Stop × Tail :=
  let stopAtKey (s : Stop) := ([(.error s, .broken s (some s))], none, .stopped s)
  match fuel with
  | 0 => stopAtKey .endInValue
  | fuel + 1 =>
    match skipSpace chars with
    | [] => stopAtKey .endInValue
    | '"' :: rest =>
      match scanString rest with
      | (.ok _, .stopped s) => stopAtKey s
      | (.error s, .stopped t) => ([(.error s, .broken t (some t))], none, .stopped t)
      | (key, .rest rest) =>
        match skipSpace rest with
        | ':' :: rest =>
          match readValue fuel depth rest with
          | (value, .stopped s) => ([(key, value)], none, .stopped s)
          | (value, .rest rest) =>
            match skipSpace rest with
            | '\x7d' :: rest => ([(key, value)], none, .rest rest)
            | ',' :: rest =>
              let (members, stop, tail) := readMembers fuel depth rest
              ((key, value) :: members, stop, tail)
            | [] => ([(key, value)], some .endInTable, .stopped .endInTable)
            | _ => ([(key, value)], some .noTableComma, .stopped .noTableComma)
        | [] =>
          let (value, tail) := stopAt .endInTable
          ([(key, value)], none, tail)
        | _ =>
          let (value, tail) := stopAt .noColon
          ([(key, value)], none, tail)
    | '\x7d' :: _ => stopAtKey .trailingComma
    | _ => stopAtKey .noKey

end

def document (text : String) : Document × Bool :=
  let chars := text.toList
  match readValue (2 * chars.length + 2) 0 chars with
  | (doc, .rest rest) => (doc, !(skipSpace rest).isEmpty)
  | (doc, .stopped _) => (doc, false)

/-- The value that a whole text spells; `levels` bounds how often one text may be embedded in
another. -/
def parseWithin : Nat → String → Except Document.ReadError Json
  | 0, _ => .error (.stop .endInValue)
  | levels + 1, text =>
    let (doc, trailing) := document text
    let parseInner inner := (parseWithin levels inner).mapError Document.ReadError.embedded
    match doc.toJson parseInner .refused with
    | .error e => .error e
    | .ok value => if trailing then .error (.stop .trailingText) else .ok value

def parse (text : String) : Except Document.ReadError Json := parseWithin (text.length + 1) text

def parseEmbedded (text : String) : Except Document.DataError Json :=
  (parse text).mapError Document.ReadError.embedded

end ApiGateway.Json
