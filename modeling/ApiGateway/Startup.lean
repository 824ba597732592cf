import ApiGateway.Config.File
import ApiGateway.Gateway.Service

/-! Starting a gateway from a configuration file. -/

namespace ApiGateway

def logDirective (level : String) : String := s!"pipeline_gateway={level},tower_http={level}"

inductive StartupError where
  | load (error : LoadError)
  | configuration (error : ConfigurationError)

def StartupError.message : StartupError → String
  | .load e => e.message
  | .configuration e => e.message

def Service.ofFile (registry : Registry) (name : String) (file : FileState) :
    Except StartupError Service :=
  match Config.load name file with
  | .error e => .error (.load e)
  | .ok config =>
    match (Gateway.load registry config).result with
    | .error e => .error (.configuration e)
    | .ok gateway => .ok (.start gateway)

end ApiGateway
