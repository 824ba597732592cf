import ApiGateway.Document.Basic

/-! Tables under construction. Where a table came from decides who may still add to it. -/

namespace ApiGateway.Toml

/-- A header opens a table; a longer header or a dotted key brings tables along the way. -/
inductive Origin where
  | header
  | implied
  | dotted
deriving DecidableEq

inductive Item where
  | leaf (doc : Document)
  | table (origin : Origin) (entries : List (String × Item))
  | tables (elements : List (List (String × Item)))

abbrev Entries := List (String × Item)

namespace Item

mutual

def toDocument : Item → Document
  | .leaf doc => doc
  | .table _ entries => .table (entryDocuments entries) none
  | .tables elements => .list (elementDocuments elements) none

def entryDocuments : List (String × Item) → List (Except Stop String × Document)
  | [] => []
  | (key, item) :: rest => (.ok key, toDocument item) :: entryDocuments rest

def elementDocuments : List (List (String × Item)) → List Document
  | [] => []
  | entries :: rest => .table (entryDocuments entries) none :: elementDocuments rest

end

end Item

namespace Entries

def toDocument (entries : Entries) : Document := .table (Item.entryDocuments entries) none

def alter (key : String) (change : Option Item → Option Item) : Entries → Option Entries
  | [] => (change none).map fun item => [(key, item)]
  | (k, item) :: rest =>
    if k = key then (change (some item)).map fun item => (k, item) :: rest
    else (alter key change rest).map fun rest => (k, item) :: rest

def alterLast (change : Entries → Option Entries) : List Entries → Option (List Entries)
  | [] => none
  | [last] => (change last).map fun last => [last]
  | first :: rest => (alterLast change rest).map fun rest => first :: rest

/-- Edits the table at the end of `path`; missing tables are made with origin `new`. An array of
tables stands for its last element. A dotted path may not enter a table that a header opened. -/
def within (new : Origin) (edit : Origin → Entries → Option Entries) :
    List String → Origin → Entries → Option Entries
  | [], origin, entries => edit origin entries
  | key :: path, _, entries =>
    entries.alter key fun
      | none => (within new edit path new []).map (Item.table new)
      | some (.leaf _) => none
      | some (.table origin inner) =>
        if new = .dotted && origin = .header then none
        else (within new edit path origin inner).map (Item.table origin)
      | some (.tables elements) =>
        (alterLast (within new edit path .header) elements).map Item.tables

def assign (path : List String) (key : String) (doc : Document) (entries : Entries) :
    Option Entries :=
  within .dotted
    (fun origin table =>
      if decide (origin = .dotted) == path.isEmpty then none
      else table.alter key fun
        | none => some (.leaf doc)
        | some _ => none)
    path .header entries

/-- `[path.key]`: a table that so far was only implied may be opened once, and then stands last. -/
def openTable (path : List String) (key : String) (entries : Entries) : Option Entries :=
  within .implied
    (fun _ table =>
      match table.find? (fun entry => entry.1 = key) with
      | none => some (table ++ [(key, .table .header [])])
      | some (_, .table .implied inner) =>
        some (table.filter (fun entry => entry.1 ≠ key) ++ [(key, .table .header inner)])
      | some _ => none)
    path .header entries

def openElement (path : List String) (key : String) (entries : Entries) : Option Entries :=
  within .implied
    (fun _ table => table.alter key fun
      | none => some (.tables [[]])
      | some (.tables elements) => some (.tables (elements ++ [[]]))
      | some _ => none)
    path .header entries

def assignUnder (header path : List String) (key : String) (doc : Document) (entries : Entries) :
    Option Entries :=
  within .implied (fun _ table => assign path key doc table) header .header entries

end Entries
end ApiGateway.Toml
