import ApiGateway.Gateway.Router

/-! Gateways: loading a configuration and replacing it while requests are served. -/

namespace ApiGateway

inductive Transport where
  | plain
  | tls (cert key : String)
deriving DecidableEq

namespace Transport

def ofConfig (config : Config) : Transport :=
  match config.tls with
  | some files => .tls files.cert files.key
  | none => .plain

def isTls : Transport → Bool
  | .plain => false
  | .tls _ _ => true

end Transport

structure Gateway where
  registry : Registry
  config : Config
  table : Table
  transport : Transport

namespace Gateway

def load (registry : Registry) (config : Config) : Build Gateway :=
  (Table.build registry config).andThen fun table =>
    .done ⟨registry, config, table, .ofConfig config⟩

def router (gateway : Gateway) : Router := .ofSeconds gateway.config.timeouts.requestSecs

def storeTable (gateway : Gateway) (table : Table) : Gateway := { gateway with table }

def storeConfig (gateway : Gateway) (config : Config) : Gateway := { gateway with config }

/-- Replaces table and configuration, or leaves both as they are. The transport stays the one that
the gateway was loaded with. -/
def reload (gateway : Gateway) (config : Config) : Except ConfigurationError Gateway :=
  (Table.build gateway.registry config).result.map fun table =>
    (gateway.storeTable table).storeConfig config

end Gateway
end ApiGateway
