/-! UTF-8: encoding, and decoding that puts U+FFFD for each maximal broken run. -/

namespace ApiGateway.Text

abbrev Bytes := List UInt8

def encodeUtf8 (text : String) : Bytes := text.toList.flatMap String.utf8EncodeChar

/-- The range the byte after a lead byte may take, with the number of bytes that follow the lead;
overlong forms, surrogates and values past U+10FFFF are cut off here. -/
def leadRange? (lead : Nat) : Option (Nat × Nat × Nat) :=
  if 0xC2 ≤ lead && lead ≤ 0xDF then some (1, 0x80, 0xBF)
  else if lead == 0xE0 then some (2, 0xA0, 0xBF)
  else if lead == 0xED then some (2, 0x80, 0x9F)
  else if 0xE1 ≤ lead && lead ≤ 0xEF then some (2, 0x80, 0xBF)
  else if lead == 0xF0 then some (3, 0x90, 0xBF)
  else if lead == 0xF4 then some (3, 0x80, 0x8F)
  else if 0xF1 ≤ lead && lead ≤ 0xF3 then some (3, 0x80, 0xBF)
  else none

structure Pending where
  due : Nat
  low : Nat
  high : Nat
  bits : Nat

def leadBits (due lead : Nat) : Nat :=
  if due = 1 then lead % 0x20 else if due = 2 then lead % 0x10 else lead % 0x08

def startChar (lead : Nat) : List (Option Char) × Option Pending :=
  if lead < 0x80 then ([some (Char.ofNat lead)], none)
  else match leadRange? lead with
    | none => ([none], none)
    | some (due, low, high) => ([], some ⟨due, low, high, leadBits due lead⟩)

def stepUtf8 (state : Option Pending) (byte : Nat) : List (Option Char) × Option Pending :=
  match state with
  | none => startChar byte
  | some p =>
    if p.low ≤ byte && byte ≤ p.high then
      let bits := p.bits * 0x40 + byte % 0x40
      if p.due ≤ 1 then ([some (Char.ofNat bits)], none)
      else ([], some ⟨p.due - 1, 0x80, 0xBF, bits⟩)
    else
      let (out, next) := startChar byte
      (none :: out, next)

def scanUtf8 : Option Pending → Bytes → List (Option Char)
  | none, [] => []
  | some _, [] => [none]
  | state, byte :: rest =>
    let (out, next) := stepUtf8 state byte.toNat
    out ++ scanUtf8 next rest

def decodeLossy (bytes : Bytes) : String :=
  String.ofList ((scanUtf8 none bytes).map fun c => c.getD (Char.ofNat 0xFFFD))

def decodeUtf8? (bytes : Bytes) : Option String :=
  ((scanUtf8 none bytes).mapM id).map String.ofList

end ApiGateway.Text
