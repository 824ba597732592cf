import ApiGateway.Action.Registry
import ApiGateway.Http.Host

/-! Stock actions: small ones that answer, edit, delay or break a request. -/

namespace ApiGateway

inductive StockAction where
  | echo
  | fake
  | respond
  | report
  | bind
  | read
  | strict
  | delay
  | pass
  | setContext
  | setHeader
  | removeHeader
  | setMethod
  | setUri
  | fail
  | failSource
  | panic
  | hang
deriving DecidableEq

namespace StockAction

def every : List StockAction :=
  [.echo, .fake, .respond, .report, .bind, .read, .strict, .delay, .pass, .setContext, .setHeader,
    .removeHeader, .setMethod, .setUri, .fail, .failSource, .panic, .hang]

def name : StockAction → String
  | .echo => "echo"
  | .fake => "fake"
  | .respond => "respond"
  | .report => "report"
  | .bind => "bind"
  | .read => "read"
  | .strict => "strict"
  | .delay => "delay"
  | .pass => "pass"
  | .setContext => "set-context"
  | .setHeader => "set-header"
  | .removeHeader => "remove-header"
  | .setMethod => "set-method"
  | .setUri => "set-uri"
  | .fail => "fail"
  | .failSource => "fail-source"
  | .panic => "panic"
  | .hang => "hang"

def ofName? (name : String) : Option StockAction := every.find? fun action => action.name = name

/-! ## Parameters -/

def textParam? (params : Json) (key : String) : Option String :=
  (params.member? key).bind Json.text?

def needText (params : Json) (key : String) : Except String String :=
  match textParam? params key with
  | some s => .ok s
  | none => .error s!"missing \"{key}\" param"

def needLimit (params : Json) : Except String Nat :=
  match (params.member? "limit").bind Json.unsigned? with
  | some n => .ok n
  | none => .error "limit is required"

def statusParam (params : Json) : Except String Nat :=
  let status := ((params.member? "status").bind Json.unsigned?).getD 200
  if 100 ≤ status && status < 1000 then .ok status else .error "invalid status code"

/-! ## Handlers -/

def answerText (text : String) : Reaction := .answer (.ofText 200 text)

def answerJson (value : Json) : Reaction := .answer (.ofJson value)

def passEdited (refusal : String) : Option Request → Reaction
  | some request => .pass request
  | none => .fail ⟨refusal, []⟩

def handleEcho : Handler := fun r =>
  answerJson (.object [("result", .str "echo"), ("url", .str r.uri.text)])

def handleFake (name : String) (params : Json) : Handler := fun r =>
  let host := (r.headers.get? .host).bind HeaderValue.text?
  answerJson (.object [
    ("result", .str name),
    ("params", params),
    ("hostname", .ofOption (host.map hostname)),
    ("url", .str r.uri.text)])

def handleReport : Handler := fun r =>
  answerJson (.object [
    ("mount", .ofOption r.mountPath),
    ("method", .str r.method.text),
    ("uri", .str r.uri.text),
    ("original", .ofOption (r.arrivalUri.map Uri.text)),
    ("host", .ofOption r.host?)])

def handleRead (field : String) : Handler := fun r =>
  answerText ((Dict.find? field r.fields).getD "(none)")

def handleSetHeader (name value : String) : Handler := fun r =>
  match HeaderName.ofText? name with
  | none => .fail ⟨"bad name", []⟩
  | some name => passEdited "bad value" do
    let value ← HeaderValue.ofText? value
    some { r with headers := r.headers.set name value }

def handleRemoveHeader (name : String) : Handler := fun r =>
  match HeaderName.ofText? name with
  | none => .pass r
  | some name => .pass { r with headers := r.headers.remove name }

def handleSetMethod (name : String) : Handler := fun r =>
  passEdited "bad method" ((Method.ofText? name).map fun m => { r with method := m })

def handleSetUri (text : String) : Handler := fun r =>
  passEdited "bad uri" ((Uri.parse? text).map fun uri => { r with uri })

/-! ## Constructors -/

def construct (action : StockAction) (name : String) : Constructor := fun params config =>
  match action with
  | .echo => .ok handleEcho
  | .fake => .ok (handleFake name params)
  | .respond => do
    let status ← statusParam params
    let body := (textParam? params "body").getD ""
    .ok fun _ => .answer (.ofText status body)
  | .report => .ok handleReport
  | .bind => .ok fun _ => answerText config.listener.bindAddress
  | .read => do
    let field ← needText params "name"
    .ok (handleRead field)
  | .strict => do
    let limit ← needLimit params
    .ok fun _ => answerText s!"limit={limit}"
  | .delay => do
    let limit ← needLimit params
    .ok fun r => .settle (1000 * limit) (.ok (.pass r))
  | .pass => .ok .pass
  | .setContext => do
    let field ← needText params "name"
    let value ← needText params "value"
    .ok fun r => .pass (r.setField field value)
  | .setHeader => do
    let header ← needText params "name"
    let value ← needText params "value"
    .ok (handleSetHeader header value)
  | .removeHeader => do
    let header ← needText params "name"
    .ok (handleRemoveHeader header)
  | .setMethod => do
    let m ← needText params "method"
    .ok (handleSetMethod m)
  | .setUri => do
    let uri ← needText params "uri"
    .ok (handleSetUri uri)
  | .fail =>
    let message := (textParam? params "message").getD "failed"
    .ok fun _ => .fail ⟨message, []⟩
  | .failSource => .ok fun _ => .fail ⟨"outer", ["inner"]⟩
  | .panic => .ok fun _ => .settle 0 (.error .panic)
  | .hang => .ok fun _ => .stall

end StockAction

namespace Registry

def registerStock (registry : Registry) (name : String) (action : StockAction) : Registry :=
  (registry.register name (action.construct name)).2

/-- The stock actions under their own names and then under other ones, where an unknown action only
passes; excluded names are left out. -/
def stock (aliases : List (String × String)) (excluded : List String) : Registry :=
  let own := StockAction.every.map fun action => (action.name, action)
  let others := aliases.map fun (name, kind) => (name, (StockAction.ofName? kind).getD .pass)
  ((own ++ others).filter fun entry => !excluded.contains entry.1).foldl
    (fun registry entry => registry.registerStock entry.1 entry.2) .empty

end Registry
end ApiGateway
