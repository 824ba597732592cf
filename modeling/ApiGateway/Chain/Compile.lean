import ApiGateway.Action.Registry
import ApiGateway.Chain.Basic
import ApiGateway.Condition.Compile
import ApiGateway.Config.Validation

/-! Compiling pipelines: the first processor that fails decides the error. -/

namespace ApiGateway

inductive ConfigurationError where
  | invalid (errors : List ValidationError)
  | unknownAction (pipeline action : String)
  | actionInit (pipeline action cause : String)
  | condition (pipeline : String) (index : Nat) (error : CompileError)

def ConfigurationError.message : ConfigurationError → String
  | .invalid errors => "invalid configuration: " ++ joinMessages errors
  | .unknownAction pipeline action =>
    s!"pipeline \"{pipeline}\": could not find action \"{action}\""
  | .actionInit pipeline action cause =>
    s!"pipeline \"{pipeline}\": action \"{action}\" failed to initialize: {cause}"
  | .condition pipeline index error =>
    s!"pipeline \"{pipeline}\", processor {index}: " ++ error.message

structure Construction where
  pipeline : String
  index : Nat
  action : String
  params : Json

structure Build (α : Type) where
  constructions : List Construction
  result : Except ConfigurationError α

namespace Build

variable {α β : Type}

def done (value : α) : Build α := ⟨[], .ok value⟩

def refuse (error : ConfigurationError) : Build α := ⟨[], .error error⟩

def andThen (build : Build α) (next : α → Build β) : Build β :=
  match build.result with
  | .ok value => ⟨build.constructions ++ (next value).constructions, (next value).result⟩
  | .error e => ⟨build.constructions, .error e⟩

def each (builder : Nat → α → Build β) : Nat → List α → Build (List β)
  | _, [] => done []
  | index, item :: rest =>
    (builder index item).andThen fun value =>
      (each builder (index + 1) rest).andThen fun values => done (value :: values)

end Build

namespace Processor

def compileCondition (p : Processor) : Except CompileError Condition :=
  match p.condition with
  | some raw => Condition.compile raw
  | none => .ok .always

/-- The condition is compiled first, then the action looked up, then its constructor called. -/
def compile (registry : Registry) (config : Config) (pipeline : String) (index : Nat)
    (p : Processor) : Build Step :=
  match p.compileCondition with
  | .error e => .refuse (.condition pipeline index e)
  | .ok condition =>
    match registry.lookup p.action with
    | none => .refuse (.unknownAction pipeline p.action)
    | some constructor =>
      ⟨[⟨pipeline, index, p.action, p.params⟩],
        match constructor p.params config with
        | .error cause => .error (.actionInit pipeline p.action cause)
        | .ok handler => .ok ⟨p.action, condition, handler⟩⟩

end Processor

def Pipeline.compile (registry : Registry) (config : Config) (p : Pipeline) : Build Chain :=
  (Build.each (Processor.compile registry config p.name) 0 p.processors).andThen fun steps =>
    .done ⟨p.name, steps⟩

end ApiGateway
