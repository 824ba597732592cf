import ApiGateway.Text.Hex
import ApiGateway.Text.Unprintable

/-! Quoted text: a double-quoted literal in which every character is visible. -/

namespace ApiGateway.Text

def escapeChar (c : Char) : List Char :=
  if c = '"' then ['\\', '"']
  else if c = '\\' then ['\\', '\\']
  else if c = '\n' then ['\\', 'n']
  else if c = '\r' then ['\\', 'r']
  else if c = '\t' then ['\\', 't']
  else if c.toNat = 0 then ['\\', '0']
  else if isUnprintable c then '\\' :: 'u' :: '\x7b' :: (hexText c.toNat ++ ['\x7d'])
  else [c]

def escape (chars : List Char) : List Char := chars.flatMap escapeChar

def quoted (text : String) : String := String.ofList ('"' :: (escape text.toList ++ ['"']))

end ApiGateway.Text
