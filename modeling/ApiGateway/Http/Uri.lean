import ApiGateway.Text.Split

/-! Request URIs, in origin, absolute, authority or asterisk form. Fragments are dropped. -/

namespace ApiGateway

inductive Scheme where
  | http
  | https
  | other (name : String)
deriving DecidableEq

structure PathQuery where
  path : String
  query : Option String
deriving DecidableEq

structure Uri where
  scheme : Option Scheme
  authority : Option String
  target : PathQuery
deriving DecidableEq

/-- Visible characters, and all beyond ASCII; some that ought to be percent-encoded pass. -/
def isPathChar (c : Char) : Bool :=
  let n := c.toNat
  0x21 ≤ n && n ≠ 0x23 && n ≠ 0x3C && n ≠ 0x3E && n ≠ 0x3F && n ≠ 0x60 && n ≠ 0x7F

def isQueryChar (c : Char) : Bool :=
  let n := c.toNat
  0x21 ≤ n && n ≠ 0x22 && n ≠ 0x23 && n ≠ 0x3C && n ≠ 0x3E && n ≠ 0x7F

def PathQuery.parse? (chars : List Char) : Option PathQuery :=
  let path := chars.takeWhile fun c => c ≠ '?' && c ≠ '#'
  if path.all isPathChar then
    match chars.dropWhile fun c => c ≠ '?' && c ≠ '#' with
    | '?' :: rest =>
      let query := rest.takeWhile (· ≠ '#')
      if query.all isQueryChar then some ⟨String.ofList path, some (String.ofList query)⟩ else none
    | _ => some ⟨String.ofList path, none⟩
  else none

/-! ## Authorities -/

def isUriChar (c : Char) : Bool := c.isAlphanum || "!#$&'()*+,-./:;=?@[]_~".toList.contains c

/-- What has been seen of an authority. Colons and percent signs inside user information or brackets
do not count. -/
structure AuthorityScan where
  colons : Nat
  opened : Bool
  closed : Bool
  percent : Bool

def AuthorityScan.step (s : AuthorityScan) (c : Char) : Option AuthorityScan :=
  if c = ':' then if 8 ≤ s.colons then none else some { s with colons := s.colons + 1 }
  else if c = '[' then if s.percent || s.opened then none else some { s with opened := true }
  else if c = ']' then
    if !s.opened || s.closed then none
    else some { s with closed := true, colons := 0, percent := false }
  else if c = '@' then some { s with colons := 0, percent := false }
  else if c = '%' then some { s with percent := true }
  else if isUriChar c then some s
  else none

def AuthorityScan.run (s : AuthorityScan) : List Char → Option AuthorityScan
  | [] => some s
  | c :: rest => (s.step c).bind (run · rest)

/-- At most one colon for the port, brackets in one pair or none, something after the last at
sign. -/
def isAuthority (chars : List Char) : Bool :=
  match AuthorityScan.run ⟨0, false, false, false⟩ chars with
  | some s => s.opened == s.closed && s.colons ≤ 1 && !s.percent && chars.getLast? ≠ some '@'
  | none => false

def authorityHost (chars : List Char) : List Char :=
  let hostPort := match Text.splitLast? '@' chars with
    | some (_, after) => after
    | none => chars
  match hostPort with
  | '[' :: rest => '[' :: (rest.takeWhile (· ≠ ']') ++ [']'])
  | hostPort => hostPort.takeWhile (· ≠ ':')

/-! ## Whole URIs -/

def isSchemeChar (c : Char) : Bool := c.isAlphanum || "+-.~".toList.contains c

def startsWithIgnoringCase (start : String) (chars : List Char) : Bool :=
  (chars.take start.length).map Char.toLower == start.toList

def splitScheme (chars : List Char) : Except Unit (Option (Scheme × List Char)) :=
  if startsWithIgnoringCase "http://" chars then .ok (some (.http, chars.drop 7))
  else if startsWithIgnoringCase "https://" chars then .ok (some (.https, chars.drop 8))
  else
    let name := chars.takeWhile isSchemeChar
    match chars.dropWhile isSchemeChar with
    | ':' :: '/' :: '/' :: rest =>
      if name.isEmpty && rest.isEmpty then .ok none
      else if 64 < name.length then .error ()
      else .ok (some (.other (String.ofList name), rest))
    | _ => .ok none

def endsAuthority (c : Char) : Bool := c = '/' || c = '?' || c = '#'

namespace Uri

def parseFull? (chars : List Char) : Option Uri :=
  match splitScheme chars with
  | .error _ => none
  | .ok none =>
    if isAuthority chars && !chars.any endsAuthority then
      some ⟨none, some (String.ofList chars), ⟨"", none⟩⟩
    else none
  | .ok (some (scheme, rest)) =>
    let authority := rest.takeWhile fun c => !endsAuthority c
    if isAuthority authority && !authority.isEmpty then
      (PathQuery.parse? (rest.dropWhile fun c => !endsAuthority c)).map fun target =>
        ⟨some scheme, some (String.ofList authority), target⟩
    else none

def maxLength : Nat := 65534

def parse? (text : String) : Option Uri :=
  if maxLength < text.utf8ByteSize then none
  else match text.toList with
    | [] => none
    | ['*'] => some ⟨none, none, ⟨"*", none⟩⟩
    | '/' :: rest => (PathQuery.parse? ('/' :: rest)).map fun target => ⟨none, none, target⟩
    | chars => parseFull? chars

def root : Uri := ⟨none, none, ⟨"/", none⟩⟩

/-- The path; a URI in authority form has an empty one, every other at least a slash. -/
def path (u : Uri) : String :=
  if u.target.path = "" then
    if u.scheme.isSome || u.target.query.isSome then "/" else ""
  else u.target.path

def query (u : Uri) : Option String := u.target.query

def host? (u : Uri) : Option String :=
  u.authority.map fun authority => String.ofList (authorityHost authority.toList)

def text (u : Uri) : String :=
  let scheme := match u.scheme with
    | none => ""
    | some .http => "http://"
    | some .https => "https://"
    | some (.other name) => name ++ "://"
  let query := match u.query with
    | none => ""
    | some q => "?" ++ q
  scheme ++ u.authority.getD "" ++ u.path ++ query

/-- The URI with another path and its own query. A URI with an authority but no scheme has no path
to replace. -/
def withPath? (u : Uri) (path : String) : Option Uri := do
  let query := match u.query with
    | none => []
    | some q => '?' :: q.toList
  let target ← PathQuery.parse? (path.toList ++ query)
  if u.scheme.isSome == u.authority.isSome then some { u with target } else none

end Uri
end ApiGateway
