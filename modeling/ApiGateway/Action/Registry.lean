import ApiGateway.Action.Basic
import ApiGateway.Text.Quoted

/-! Registries: named constructors, the last one registered under a name counting. -/

namespace ApiGateway

structure Registry where
  constructors : Dict Constructor

namespace Registry

def empty : Registry := ⟨[]⟩

def lookup (registry : Registry) (name : String) : Option Constructor :=
  Dict.find? name registry.constructors

def register (registry : Registry) (name : String) (constructor : Constructor) :
    Option Constructor × Registry :=
  (registry.lookup name, ⟨Dict.insert name constructor registry.constructors⟩)

def contains (registry : Registry) (name : String) : Bool :=
  Dict.contains name registry.constructors

def names (registry : Registry) : List String := Dict.keys registry.constructors

def size (registry : Registry) : Nat := registry.constructors.length

def isEmpty (registry : Registry) : Bool := registry.constructors.isEmpty

def text (registry : Registry) : String :=
  "ActionRegistry \x7b actions: [" ++ ", ".intercalate (registry.names.map Text.quoted) ++ "] \x7d"

theorem lookup_register (registry : Registry) (name other : String) (constructor : Constructor) :
    (registry.register name constructor).2.lookup other =
      if other = name then some constructor else registry.lookup other :=
  Dict.find?_insert name other constructor registry.constructors

theorem mem_names {registry : Registry} {name : String} :
    name ∈ registry.names ↔ registry.contains name = true := Dict.contains_iff.symm

theorem length_names (registry : Registry) : registry.names.length = registry.size :=
  List.length_map _

theorem isEmpty_iff {registry : Registry} : registry.isEmpty = true ↔ registry.size = 0 :=
  List.isEmpty_iff_length_eq_zero

end Registry
end ApiGateway
