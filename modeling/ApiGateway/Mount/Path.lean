/-! Mount paths: whole leading segments of a request path, ASCII letters in either case. -/

namespace ApiGateway

structure MountPath where
  chars : List Char
deriving DecidableEq

def dropStart? : List Char → List Char → Option (List Char)
  | [], chars => some chars
  | _ :: _, [] => none
  | s :: start, c :: chars => if s.toLower = c.toLower then dropStart? start chars else none

namespace MountPath

def ofText (path : String) : MountPath := ⟨(path.toList.reverse.dropWhile (· = '/')).reverse⟩

def text (m : MountPath) : String := if m.chars.isEmpty then "/" else String.ofList m.chars

/-- What follows the mount path, which is nothing or starts with a slash. -/
def strip? (m : MountPath) (path : String) : Option String :=
  match dropStart? m.chars path.toList with
  | some [] => some ""
  | some ('/' :: rest) => some (String.ofList ('/' :: rest))
  | _ => none

end MountPath
end ApiGateway
