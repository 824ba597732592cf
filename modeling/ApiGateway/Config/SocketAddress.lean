import ApiGateway.Text.Hex

/-! Socket addresses: an IPv4 address, or an IPv6 address in brackets, and a port. A reader takes
one thing off the start of a text and gives back what follows it. -/

namespace ApiGateway

def decimalValue (digits : List Char) : Nat := digits.foldl (fun n c => 10 * n + (c.toNat - 0x30)) 0

namespace SocketAddress

def skipChar? (c : Char) : List Char → Option (List Char)
  | [] => none
  | d :: rest => if d = c then some rest else none

def skipDigits? (isDigit : Char → Bool) (isLegal : List Char → Bool) (chars : List Char) :
    Option (List Char) :=
  let digits := chars.takeWhile isDigit
  if !digits.isEmpty && isLegal digits then some (chars.dropWhile isDigit) else none

def isOctet (digits : List Char) : Bool :=
  digits.length ≤ 3 && (digits.head? ≠ some '0' || digits.length = 1) && decimalValue digits < 256

def skipOctet? : List Char → Option (List Char) := skipDigits? Char.isDigit isOctet

def isHexDigit (c : Char) : Bool := (Text.hexValue? c).isSome

def skipGroup? : List Char → Option (List Char) :=
  skipDigits? isHexDigit fun digits => digits.length ≤ 4

def skipPort? (chars : List Char) : Option (List Char) := do
  let rest ← skipChar? ':' chars
  skipDigits? Char.isDigit (fun digits => decimalValue digits < 65536) rest

def skipIpv4? (chars : List Char) : Option (List Char) := do
  let rest ← skipOctet? chars
  let rest ← skipChar? '.' rest
  let rest ← skipOctet? rest
  let rest ← skipChar? '.' rest
  let rest ← skipOctet? rest
  let rest ← skipChar? '.' rest
  skipOctet? rest

/-- Groups taken off the start of a text: how many, whether an IPv4 address went for the last two of
them, and what follows. -/
structure Groups where
  count : Nat
  dotted : Bool
  rest : List Char

def Groups.read : Nat → (first : Bool) → List Char → Groups
  | 0, _, chars => ⟨0, false, chars⟩
  | room + 1, first, chars =>
    let start := if first then some chars else skipChar? ':' chars
    match if room = 0 then none else start.bind skipIpv4? with
    | some rest => ⟨2, true, rest⟩
    | none =>
      match start.bind skipGroup? with
      | some rest =>
        let groups := read room false rest
        { groups with count := groups.count + 1 }
      | none => ⟨0, false, chars⟩

def skipIpv6? (chars : List Char) : Option (List Char) :=
  let head := Groups.read 8 true chars
  if head.count = 8 then some head.rest
  else if head.dotted then none
  else do
    let rest ← skipChar? ':' head.rest
    let rest ← skipChar? ':' rest
    some (Groups.read (7 - head.count) true rest).rest

def skipScope? (chars : List Char) : Option (List Char) := do
  let rest ← skipChar? '%' chars
  skipDigits? Char.isDigit (fun digits => decimalValue digits < 4294967296) rest

def skipV4? (chars : List Char) : Option (List Char) := do
  let rest ← skipIpv4? chars
  skipPort? rest

def skipV6? (chars : List Char) : Option (List Char) := do
  let rest ← skipChar? '[' chars
  let rest ← skipIpv6? rest
  let rest ← skipChar? ']' ((skipScope? rest).getD rest)
  skipPort? rest

end SocketAddress

def isSocketAddress (chars : List Char) : Bool :=
  (SocketAddress.skipV4? chars).or (SocketAddress.skipV6? chars) == some []

end ApiGateway
