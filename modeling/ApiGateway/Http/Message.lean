import ApiGateway.Dict
import ApiGateway.Http.Token
import ApiGateway.Http.Uri
import ApiGateway.Json.Printer

/-! Requests and responses. -/

namespace ApiGateway

abbrev ContextFields := Dict String

/-- A request on its way through the gateway. While a mounted chain runs, `uri` is relative to the
mount at `mountPath`, and `arrivalUri` keeps the URI as it arrived. -/
structure Request where
  method : Method
  uri : Uri
  headers : Headers
  fields : ContextFields
  body : Text.Bytes
  arrivalUri : Option Uri
  mountPath : Option String

namespace Request

def ofUri (uri : Uri) : Request := ⟨.get, uri, [], [], [], none, none⟩

/-- The authority in a readable `Host` header, else the host of the URI. -/
def host? (r : Request) : Option String :=
  ((r.headers.get? .host).bind HeaderValue.text?).or r.uri.host?

def requestId? (r : Request) : Option String :=
  (r.headers.get? .requestId).bind HeaderValue.text?

def setField (r : Request) (name value : String) : Request :=
  { r with fields := Dict.insert name value r.fields }

end Request

structure Response where
  status : Nat
  headers : Headers
  body : Text.Bytes

namespace Response

def plainText : HeaderValue := ⟨Text.encodeUtf8 "text/plain; charset=utf-8", by decide⟩

def jsonText : HeaderValue := ⟨Text.encodeUtf8 "application/json", by decide⟩

def ofText (status : Nat) (text : String) : Response :=
  ⟨status, [(.contentType, plainText)], Text.encodeUtf8 text⟩

def ofJson (value : Json) : Response :=
  ⟨200, [(.contentType, jsonText)], Text.encodeUtf8 value.text⟩

def empty (status : Nat) : Response := ⟨status, [], []⟩

def notFound : Response := ofText 404 "Not Found"

def internalError : Response := ofText 500 "Internal Server Error"

def panicked : Response := ofText 500 "Service panicked"

def timedOut : Response := empty 408

def isSuccess (r : Response) : Bool := 200 ≤ r.status && r.status < 300

end Response
end ApiGateway
