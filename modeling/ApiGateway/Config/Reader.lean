import ApiGateway.Config.Basic
import ApiGateway.Document.Record
import ApiGateway.Json.Reader
import ApiGateway.Toml.Reader

/-! Reading a configuration from JSON or TOML text. -/

namespace ApiGateway

open Document

def readFree (surplus : Surplus) : Read Json := fun doc =>
  doc.toJson Json.parseEmbedded surplus

def Processor.record (surplus : Surplus) : Record Processor where
  name := "ProcessorSpec"
  blank := ⟨none, "", .null⟩
  fields := [
    .of "condition" false (readOptional (readFree surplus)) fun p v => { p with condition := v },
    .of "action" true readText fun p v => { p with action := v },
    .of "params" false (readFree surplus) fun p v => { p with params := v }]

def Endpoint.record : Record Endpoint where
  name := "Endpoint"
  blank := ⟨"", none⟩
  fields := [
    .of "path" true readText fun e v => { e with path := v },
    .of "host" false (readOptional readText) fun e v => { e with host := v }]

def Pipeline.record (surplus : Surplus) : Record Pipeline where
  name := "PipelineConfig"
  blank := ⟨"", [], []⟩
  fields := [
    .of "name" true readText fun p v => { p with name := v },
    .of "processors" false (readSequence ((Processor.record surplus).read surplus))
      fun p v => { p with processors := v },
    .of "publicEndpoints" false (readSequence (Endpoint.record.read surplus))
      fun p v => { p with endpoints := v }]

def TlsFiles.record : Record TlsFiles where
  name := "TlsConfig"
  blank := ⟨"", ""⟩
  fields := [
    .of "key" true readText fun t v => { t with key := v },
    .of "cert" true readText fun t v => { t with cert := v }]

def Listener.record : Record Listener where
  name := "ListenerConfig"
  blank := .default
  fields := [.of "bindAddress" false readText fun l v => { l with bindAddress := v }]

def Timeouts.record : Record Timeouts where
  name := "TimeoutConfig"
  blank := .default
  fields := [.of "requestSecs" false readUnsigned fun t v => { t with requestSecs := v }]

def Observability.record : Record Observability where
  name := "ObservabilityConfig"
  blank := .default
  fields := [
    .of "logLevel" false readText fun o v => { o with logLevel := v },
    .of "metricsEnabled" false readFlag fun o v => { o with metricsEnabled := v },
    .of "metricsAddress" false readText fun o v => { o with metricsAddress := v }]

def Config.record (surplus : Surplus) : Record Config where
  name := "GatewayConfig"
  blank := .default
  fields := [
    .of "pipelines" false (readSequence ((Pipeline.record surplus).read surplus))
      fun c v => { c with pipelines := v },
    .of "tls" false (readOptional (TlsFiles.record.read surplus)) fun c v => { c with tls := v },
    .of "listener" false (Listener.record.read surplus) fun c v => { c with listener := v },
    .of "timeouts" false (Timeouts.record.read surplus) fun c v => { c with timeouts := v },
    .of "observability" false (Observability.record.read surplus)
      fun c v => { c with observability := v }]

inductive Format where
  | json
  | toml
deriving DecidableEq

inductive ParseError where
  | json (error : ReadError)
  | toml

namespace Config

def parseJson (text : String) : Except ReadError Config :=
  let (doc, trailing) := Json.document text
  match (record .refused).read .refused doc with
  | .error e => .error e
  | .ok config => if trailing then .error (.stop .trailingText) else .ok config

def parse (format : Format) (text : String) : Except ParseError Config :=
  match format with
  | .json => (parseJson text).mapError .json
  | .toml =>
    match Toml.document? text with
    | none => .error .toml
    | some doc => ((record .ignored).read .ignored doc).mapError fun _ => .toml

end Config
end ApiGateway
