import ApiGateway.Text.Utf8

/-! Methods, header names and header values. -/

namespace ApiGateway

def isTokenChar (c : Char) : Bool := c.isAlphanum || "!#$%&'*+-.^_`|~".toList.contains c

def isToken (text : String) : Bool := !text.toList.isEmpty && text.toList.all isTokenChar

/-- A request method. Methods compare exactly, letter case included. -/
structure Method where
  text : String
  isToken : isToken text = true
deriving DecidableEq

namespace Method

def ofText? (text : String) : Option Method :=
  if h : ApiGateway.isToken text = true then some ⟨text, h⟩ else none

def get : Method := ⟨"GET", by decide⟩

def head : Method := ⟨"HEAD", by decide⟩

def connect : Method := ⟨"CONNECT", by decide⟩

end Method

def isHeaderName (text : String) : Bool :=
  ApiGateway.isToken text && text.toList.all (fun c => !c.isUpper) && text.length ≤ 65535

structure HeaderName where
  text : String
  isName : isHeaderName text = true
deriving DecidableEq

namespace HeaderName

def ofText? (text : String) : Option HeaderName :=
  let lower := String.ofList (text.toList.map Char.toLower)
  if h : isHeaderName lower = true then some ⟨lower, h⟩ else none

def host : HeaderName := ⟨"host", by decide⟩

def requestId : HeaderName := ⟨"x-request-id", by decide⟩

def contentType : HeaderName := ⟨"content-type", by decide⟩

end HeaderName

def isHeaderByte (byte : UInt8) : Bool :=
  byte.toNat == 9 || (0x20 ≤ byte.toNat && byte.toNat ≠ 0x7F)

structure HeaderValue where
  bytes : Text.Bytes
  isValue : bytes.all isHeaderByte = true
deriving DecidableEq

namespace HeaderValue

def ofBytes? (bytes : Text.Bytes) : Option HeaderValue :=
  if h : bytes.all isHeaderByte = true then some ⟨bytes, h⟩ else none

def ofText? (text : String) : Option HeaderValue := ofBytes? (Text.encodeUtf8 text)

/-- The value as text, which only visible ASCII, the space and the tab have. -/
def text? (value : HeaderValue) : Option String :=
  if value.bytes.all (fun byte => byte.toNat < 0x7F) then
    some (String.ofList (value.bytes.map fun byte => Char.ofNat byte.toNat))
  else none

end HeaderValue

abbrev Headers := List (HeaderName × HeaderValue)

namespace Headers

def get? (headers : Headers) (name : HeaderName) : Option HeaderValue :=
  (headers.find? fun line => line.1 = name).map (·.2)

def remove (headers : Headers) (name : HeaderName) : Headers :=
  headers.filter fun line => line.1 ≠ name

def set (headers : Headers) (name : HeaderName) (value : HeaderValue) : Headers :=
  headers.remove name ++ [(name, value)]

theorem get?_remove_of_ne {headers : Headers} {name other : HeaderName} (h : other ≠ name) :
    (headers.remove name).get? other = headers.get? other := by
  rw [get?, get?, remove, List.find?_filter]
  congr 2
  funext line
  by_cases hline : line.1 = other
  · simp only [hline, ne_eq, h, not_false_eq_true, decide_true, and_self]
  · simp only [hline, decide_false, Bool.false_eq_true, and_false]

theorem get?_set_of_ne {headers : Headers} {name other : HeaderName} {value : HeaderValue}
    (h : other ≠ name) : (headers.set name value).get? other = headers.get? other := by
  have hlast : ([(name, value)] : Headers).find? (fun line => line.1 = other) = none := by
    simp [Ne.symm h]
  have hset : (headers.set name value).get? other = (headers.remove name).get? other := by
    rw [get?, get?, set, List.find?_append, hlast, Option.or_none]
  rw [hset, get?_remove_of_ne h]

end Headers
end ApiGateway
