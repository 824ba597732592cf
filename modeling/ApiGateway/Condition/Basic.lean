import ApiGateway.Http.Token
import ApiGateway.Text.Quoted
import ApiGateway.Text.Split

/-! Conditions on requests, and their printed form. -/

namespace ApiGateway

inductive Field where
  | method
  | path
  | host
  | header (name : HeaderName)
  | context (name : String)
deriving DecidableEq

namespace Field

/-- Methods and hosts compare without regard to letter case. -/
def ignoresCase : Field → Bool
  | .method => true
  | .host => true
  | _ => false

def text : Field → String
  | .method => "method"
  | .path => "path"
  | .host => "host"
  | .header name => "header." ++ name.text
  | .context name => "context." ++ name

def ofSelector? (selector : String) : Option Field :=
  if selector = "method" then some .method
  else if selector = "path" then some .path
  else if selector = "host" then some .host
  else do
    let (kind, name) ← Text.splitFirst? '.' selector.toList
    let kind := String.ofList kind
    let name := String.ofList name
    if kind = "header" || kind = "headers" then (HeaderName.ofText? name).map .header
    else if kind = "context" && name ≠ "" then some (.context name)
    else none

end Field

inductive Condition where
  | always
  | never
  | all (items : List Condition)
  | any (items : List Condition)
  | negate (item : Condition)
  | equals (field : Field) (value : String)
  | present (field : Field)
  | method (methods : List Method)
  | pathExact (path : String)
  | pathPrefix (start : String)
deriving BEq, Inhabited

namespace Condition

@[elab_as_elim, induction_eliminator]
theorem induction {motive : Condition → Prop} (always : motive .always) (never : motive .never)
    (all : ∀ items, (∀ item ∈ items, motive item) → motive (.all items))
    (any : ∀ items, (∀ item ∈ items, motive item) → motive (.any items))
    (negate : ∀ item, motive item → motive (.negate item))
    (equals : ∀ field value, motive (.equals field value))
    (present : ∀ field, motive (.present field)) (method : ∀ methods, motive (.method methods))
    (pathExact : ∀ path, motive (.pathExact path))
    (pathPrefix : ∀ start, motive (.pathPrefix start)) (c : Condition) : motive c :=
  @Condition.rec motive (fun items => ∀ item ∈ items, motive item) always never all any negate
    equals present method pathExact pathPrefix (fun _ h => absurd h List.not_mem_nil)
    (fun _ _ hitem hrest => List.forall_mem_cons.mpr ⟨hitem, hrest⟩) c

def and (a b : Condition) : Condition := .all [a, b]

def or (a b : Condition) : Condition := .any [a, b]

def not (a : Condition) : Condition := .negate a

mutual

def text : Condition → String
  | .always => "always"
  | .never => "never"
  | .all items => "(and" ++ itemsText items ++ ")"
  | .any items => "(or" ++ itemsText items ++ ")"
  | .negate item => "(not " ++ text item ++ ")"
  | .equals field value => "(equals " ++ field.text ++ " " ++ Text.quoted value ++ ")"
  | .present field => "(exists " ++ field.text ++ ")"
  | .method methods => "(method" ++ String.join (methods.map fun m => " " ++ m.text) ++ ")"
  | .pathExact path => "(pathExact " ++ Text.quoted path ++ ")"
  | .pathPrefix start => "(pathPrefix " ++ Text.quoted start ++ ")"

def itemsText : List Condition → String
  | [] => ""
  | item :: rest => " " ++ text item ++ itemsText rest

end

end Condition
end ApiGateway
