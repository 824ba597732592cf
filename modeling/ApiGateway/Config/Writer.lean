import ApiGateway.Config.Basic
import ApiGateway.Json.Printer

/-! Writing a configuration; absent conditions and hosts are left out. -/

namespace ApiGateway

section

/-! What the members of a record are put together to is left to `pack`. -/

variable (pack : List (String × Json) → Json)

def Processor.encode (p : Processor) : Json :=
  let condition := match p.condition with
    | some c => [("condition", c)]
    | none => []
  pack (condition ++ [("action", .str p.action), ("params", p.params)])

def Endpoint.encode (e : Endpoint) : Json :=
  let host := match e.host with
    | some h => [("host", .str h)]
    | none => []
  pack (("path", .str e.path) :: host)

def Pipeline.encode (p : Pipeline) : Json :=
  pack [
    ("name", .str p.name),
    ("processors", .arr (p.processors.map (Processor.encode pack))),
    ("publicEndpoints", .arr (p.endpoints.map (Endpoint.encode pack)))]

def TlsFiles.encode (t : TlsFiles) : Json := pack [("key", .str t.key), ("cert", .str t.cert)]

def Listener.encode (l : Listener) : Json := pack [("bindAddress", .str l.bindAddress)]

def Timeouts.encode (t : Timeouts) : Json := pack [("requestSecs", .nat t.requestSecs)]

def Observability.encode (o : Observability) : Json :=
  pack [
    ("logLevel", .str o.logLevel),
    ("metricsEnabled", .bool o.metricsEnabled),
    ("metricsAddress", .str o.metricsAddress)]

def Config.encode (c : Config) : Json :=
  pack [
    ("pipelines", .arr (c.pipelines.map (Pipeline.encode pack))),
    ("tls", (c.tls.map (TlsFiles.encode pack)).getD .null),
    ("listener", c.listener.encode pack),
    ("timeouts", c.timeouts.encode pack),
    ("observability", c.observability.encode pack)]

end

def Config.toJson (c : Config) : Json := c.encode Json.object

def Config.text (c : Config) : String := (c.encode Json.obj).text

end ApiGateway
