import ApiGateway.Text.Hex

/-! TOML text: blanks, comments, line ends, strings and keys. Every reader takes the characters that
are left and gives its result with the characters after it, or `none`. -/

namespace ApiGateway.Toml

abbrev Reader (α : Type) := List Char → Option (α × List Char)

def isWs (c : Char) : Bool := c = ' ' || c = '\t'

def skipWs (chars : List Char) : List Char := chars.dropWhile isWs

def isInline (c : Char) : Bool := c = '\t' || (0x20 ≤ c.toNat && c.toNat ≠ 0x7F)

def newline? : List Char → Option (List Char)
  | '\n' :: rest => some rest
  | '\r' :: '\n' :: rest => some rest
  | _ => none

def skipComment : List Char → List Char
  | '#' :: rest => rest.dropWhile isInline
  | chars => chars

def lineEnd? (chars : List Char) : Option (List Char) :=
  match skipComment (skipWs chars) with
  | [] => some []
  | chars => newline? chars

def skipGaps : Nat → List Char → Option (List Char)
  | 0, chars => some chars
  | fuel + 1, chars =>
    match skipWs chars with
    | '#' :: rest => (newline? (rest.dropWhile isInline)).bind (skipGaps fuel)
    | '\n' :: rest => skipGaps fuel rest
    | '\r' :: rest => (newline? ('\r' :: rest)).bind (skipGaps fuel)
    | chars => some chars

/-! ## Strings -/

def codePoint? (count : Nat) (chars : List Char) : Option (Char × List Char) := do
  let digits := chars.take count
  if digits.length < count then none
  else
    let n ← Text.hexNumber? digits
    if n < 0xD800 || (0xDFFF < n && n < 0x110000) then some (Char.ofNat n, chars.drop count)
    else none

def escaped? : Reader Char
  | 'b' :: rest => some (Char.ofNat 8, rest)
  | 't' :: rest => some ('\t', rest)
  | 'n' :: rest => some ('\n', rest)
  | 'f' :: rest => some (Char.ofNat 12, rest)
  | 'r' :: rest => some ('\r', rest)
  | '"' :: rest => some ('"', rest)
  | '\\' :: rest => some ('\\', rest)
  | 'u' :: rest => codePoint? 4 rest
  | 'U' :: rest => codePoint? 8 rest
  | _ => none

def consChar (c : Char) (found : Option (List Char × List Char)) :
    Option (List Char × List Char) :=
  found.map fun (chars, rest) => (c :: chars, rest)

def basicBody? : Nat → Reader (List Char)
  | 0, _ => none
  | _ + 1, [] => none
  | _ + 1, '"' :: rest => some ([], rest)
  | fuel + 1, '\\' :: rest => do
    let (c, rest) ← escaped? rest
    consChar c (basicBody? fuel rest)
  | fuel + 1, c :: rest => if isInline c then consChar c (basicBody? fuel rest) else none

def literalBody? : Reader (List Char)
  | [] => none
  | c :: rest =>
    if c = '\'' then some ([], rest)
    else if isInline c then consChar c (literalBody? rest)
    else none

/-- At a run of quotes inside a multi-line string: three close it, and up to two before them belong
to the string. -/
def closing? (quote : Char) (chars : List Char) : Option (List Char × List Char) :=
  let run := (chars.takeWhile (· = quote)).length
  if run < 3 then none
  else
    let inner := min (run - 3) 2
    some (List.replicate inner quote, chars.drop (inner + 3))

def skipBlankLines : List Char → List Char
  | '\r' :: '\n' :: rest => skipBlankLines rest
  | c :: rest => if isWs c || c = '\n' then skipBlankLines rest else c :: rest
  | [] => []

def lineSplice? (chars : List Char) : Option (List Char) :=
  (newline? (skipWs chars)).map skipBlankLines

def multiBody? (quote : Char) (escapes : Bool) : Nat → Reader (List Char)
  | 0, _ => none
  | _ + 1, [] => none
  | fuel + 1, c :: rest =>
    if c = quote then
      match closing? quote (c :: rest) with
      | some found => some found
      | none => consChar c (multiBody? quote escapes fuel rest)
    else if c = '\\' && escapes then
      match lineSplice? rest with
      | some rest => multiBody? quote escapes fuel rest
      | none => do
        let (e, rest) ← escaped? rest
        consChar e (multiBody? quote escapes fuel rest)
    else
      match newline? (c :: rest) with
      | some rest => consChar '\n' (multiBody? quote escapes fuel rest)
      | none => if isInline c then consChar c (multiBody? quote escapes fuel rest) else none

def dropFirstNewline (chars : List Char) : List Char := (newline? chars).getD chars

def textOf (found : Option (List Char × List Char)) : Option (String × List Char) :=
  found.map fun (chars, rest) => (String.ofList chars, rest)

def simpleString? : Reader String
  | '"' :: rest => textOf (basicBody? (rest.length + 1) rest)
  | '\'' :: rest => textOf (literalBody? rest)
  | _ => none

def string? : Reader String
  | '"' :: '"' :: '"' :: rest =>
    textOf (multiBody? '"' true (rest.length + 1) (dropFirstNewline rest))
  | '\'' :: '\'' :: '\'' :: rest =>
    textOf (multiBody? '\'' false (rest.length + 1) (dropFirstNewline rest))
  | chars => simpleString? chars

/-! ## Keys -/

def isBare (c : Char) : Bool := c.isAlphanum || c = '-' || c = '_'

def simpleKey? (chars : List Char) : Option (String × List Char) :=
  match simpleString? chars with
  | some found => some found
  | none =>
    let key := chars.takeWhile isBare
    if key.isEmpty then none else some (String.ofList key, chars.dropWhile isBare)

def keyParts? : Nat → Reader (List String)
  | 0, _ => none
  | fuel + 1, chars => do
    let (key, rest) ← simpleKey? (skipWs chars)
    match skipWs rest with
    | '.' :: rest => (keyParts? fuel rest).map fun (keys, rest) => (key :: keys, rest)
    | rest => some ([key], rest)

/-- Arrays, inline tables and dotted keys may nest less than this deep. -/
def nestingLimit : Nat := 80

def key? (chars : List Char) : Option ((List String × String) × List Char) := do
  let (keys, rest) ← keyParts? (chars.length + 1) chars
  let last ← keys.getLast?
  if keys.length < nestingLimit then some ((keys.dropLast, last), rest) else none

end ApiGateway.Toml
