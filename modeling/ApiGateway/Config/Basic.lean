import ApiGateway.Json.Basic

/-! The configuration of a gateway. -/

namespace ApiGateway

structure Processor where
  condition : Option Json
  action : String
  params : Json

structure Endpoint where
  path : String
  host : Option String
deriving DecidableEq

structure Pipeline where
  name : String
  processors : List Processor
  endpoints : List Endpoint

structure TlsFiles where
  key : String
  cert : String
deriving DecidableEq

structure Listener where
  bindAddress : String
deriving DecidableEq

structure Timeouts where
  requestSecs : Nat
deriving DecidableEq

structure Observability where
  logLevel : String
  metricsEnabled : Bool
  metricsAddress : String
deriving DecidableEq

structure Config where
  pipelines : List Pipeline
  tls : Option TlsFiles
  listener : Listener
  timeouts : Timeouts
  observability : Observability

def Listener.default : Listener := ⟨"0.0.0.0:8080"⟩

def Timeouts.default : Timeouts := ⟨30⟩

def Observability.default : Observability := ⟨"info", false, "0.0.0.0:9090"⟩

def Config.default : Config :=
  ⟨[], none, Listener.default, Timeouts.default, Observability.default⟩

end ApiGateway
