/-! Reasons why a text cannot be read further. -/

namespace ApiGateway

inductive Stop where
  | endInList
  | endInTable
  | endInString
  | endInValue
  | noColon
  | noListComma
  | noTableComma
  | noWord
  | noValue
  | noKey
  | unknownEscape
  | noHexDigits
  | badNumber
  | numberTooLarge
  | controlCharacter
  | loneUnit
  | openPair
  | trailingComma
  | trailingText
  | listTooDeep
  | tableTooDeep
deriving DecidableEq, Repr

namespace Stop

def isEnd : Stop → Bool
  | .endInList => true
  | .endInTable => true
  | .endInString => true
  | .endInValue => true
  | _ => false

def message : Stop → String
  | .endInList => "EOF while parsing a list"
  | .endInTable => "EOF while parsing an object"
  | .endInString => "EOF while parsing a string"
  | .endInValue => "EOF while parsing a value"
  | .noColon => "expected `:`"
  | .noListComma => "expected `,` or `]`"
  | .noTableComma => "expected `,` or `\x7d`"
  | .noWord => "expected ident"
  | .noValue => "expected value"
  | .noKey => "key must be a string"
  | .unknownEscape => "invalid escape"
  | .noHexDigits => "invalid escape"
  | .badNumber => "invalid number"
  | .numberTooLarge => "number out of range"
  | .controlCharacter =>
    "control character (\\u0000-\\u001F) found while parsing a string"
  | .loneUnit => "lone leading surrogate in hex escape"
  | .openPair => "unexpected end of hex escape"
  | .trailingComma => "trailing comma"
  | .trailingText => "trailing characters"
  | .listTooDeep => "recursion limit exceeded"
  | .tableTooDeep => "recursion limit exceeded"

end Stop
end ApiGateway
