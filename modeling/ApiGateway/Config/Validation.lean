import ApiGateway.Config.Basic
import ApiGateway.Config.SocketAddress
import ApiGateway.Text.Blank
import ApiGateway.Text.Split

/-! Checking a configuration: every violation is listed, in document order. -/

namespace ApiGateway

inductive ValidationError where
  | emptyPipelineName (index : Nat)
  | duplicatePipeline (name : String)
  | emptyActionName (pipeline : String) (index : Nat)
  | invalidEndpointPath (pipeline path : String)
  | emptyEndpointHost (pipeline path : String)
  | emptyTlsPath (field : String)
  | invalidBindAddress (address : String)
deriving DecidableEq

def ValidationError.message : ValidationError → String
  | .emptyPipelineName index => s!"pipeline #{index} has an empty name"
  | .duplicatePipeline name => s!"pipeline \"{name}\" is defined more than once"
  | .emptyActionName pipeline index =>
    s!"pipeline \"{pipeline}\": processor {index} has an empty action"
  | .invalidEndpointPath pipeline path =>
    s!"pipeline \"{pipeline}\": endpoint path \"{path}\" must start with '/'"
  | .emptyEndpointHost pipeline path =>
    s!"pipeline \"{pipeline}\": endpoint \"{path}\" has an empty host"
  | .emptyTlsPath field => s!"tls.{field} must not be empty"
  | .invalidBindAddress address =>
    s!"listener bind address \"{address}\" is not a socket address"

def joinMessages (errors : List ValidationError) : String :=
  ", ".intercalate (errors.map ValidationError.message)

def isPort (chars : List Char) : Bool :=
  let digits := match chars with
    | '+' :: rest => rest
    | _ => chars
  !digits.isEmpty && digits.all Char.isDigit && decimalValue digits < 65536

/-- A host and a port, cut at the last colon. The host is not empty and holds no white space. -/
def isHostAndPort (chars : List Char) : Bool :=
  match Text.splitLast? ':' chars with
  | some (host, port) => !host.isEmpty && !host.any Text.isBlank && isPort port
  | none => false

def isBindAddress (address : String) : Bool :=
  isSocketAddress address.toList || isHostAndPort address.toList

namespace Processor

def violations (pipeline : String) (index : Nat) (p : Processor) : List ValidationError :=
  if Text.isBlankText p.action then [.emptyActionName pipeline index] else []

end Processor

namespace Endpoint

def violations (pipeline : String) (e : Endpoint) : List ValidationError :=
  let path := if e.path.toList.head? = some '/' then [] else [.invalidEndpointPath pipeline e.path]
  let host := match e.host with
    | some h => if Text.isBlankText h then [.emptyEndpointHost pipeline e.path] else []
    | none => []
  path ++ host

end Endpoint

namespace Pipeline

def processorViolations (pipeline : String) (index : Nat) : List Processor → List ValidationError
  | [] => []
  | p :: rest => p.violations pipeline index ++ processorViolations pipeline (index + 1) rest

def contentViolations (p : Pipeline) : List ValidationError :=
  processorViolations p.name 0 p.processors ++ p.endpoints.flatMap (Endpoint.violations p.name)

/-- `seen` holds the names met before; a blank name never counts as repeated. -/
def nameViolations (seen : List String) (index : Nat) (name : String) : List ValidationError :=
  if Text.isBlankText name then [.emptyPipelineName index]
  else if seen.contains name then [.duplicatePipeline name]
  else []

def violations (seen : List String) (index : Nat) : List Pipeline → List ValidationError
  | [] => []
  | p :: rest =>
    nameViolations seen index p.name ++ p.contentViolations ++
      violations (p.name :: seen) (index + 1) rest

end Pipeline

namespace Config

def tlsViolations : Option TlsFiles → List ValidationError
  | none => []
  | some tls =>
    (if Text.isBlankText tls.key then [.emptyTlsPath "key"] else []) ++
      (if Text.isBlankText tls.cert then [.emptyTlsPath "cert"] else [])

def bindViolations (listener : Listener) : List ValidationError :=
  if isBindAddress listener.bindAddress then []
  else [.invalidBindAddress listener.bindAddress]

def violations (c : Config) : List ValidationError :=
  Pipeline.violations [] 0 c.pipelines ++ tlsViolations c.tls ++ bindViolations c.listener

def validate (c : Config) : Except (List ValidationError) Unit :=
  match c.violations with
  | [] => .ok ()
  | errors => .error errors

end Config
end ApiGateway
