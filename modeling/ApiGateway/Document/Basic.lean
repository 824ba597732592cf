import ApiGateway.Document.Stop
import ApiGateway.Json.Basic

/-! Documents: what a text says, in text order, up to the point where it can no longer be read.

A reader that takes values one by one meets the first problem of a text first, whether it is broken
syntax or a value of the wrong kind. A document therefore keeps its broken places: whoever walks it
in order finds the same first problem as one who reads along. -/

namespace ApiGateway

/-- A list or table carries `stop` when the text breaks off right after its last entry. Where a
comma follows that entry, what breaks off is one more entry. -/
inductive Document where
  | null
  | bool (value : Bool)
  | num (value : Number)
  /-- A number that is infinite or not a number. -/
  | unbounded
  | str (value : String)
  | list (items : List Document) (stop : Option Stop)
  | table (members : List (Except Stop String × Document)) (stop : Option Stop)
  /-- A place that cannot be read; one that may still be passed over has no `skip`. -/
  | broken (read : Stop) (skip : Option Stop)

namespace Document

mutual

def skip : Document → Option Stop
  | .list items stop => (skipItems items).or stop
  | .table members stop => (skipMembers members).or stop
  | .broken _ s => s
  | _ => none

def skipItems : List Document → Option Stop
  | [] => none
  | d :: ds => (skip d).or (skipItems ds)

def skipMembers : List (Except Stop String × Document) → Option Stop
  | [] => none
  | (_, d) :: ms => (skip d).or (skipMembers ms)

end

end Document
end ApiGateway
