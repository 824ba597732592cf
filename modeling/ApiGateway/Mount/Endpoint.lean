import ApiGateway.Config.Basic
import ApiGateway.Http.Host
import ApiGateway.Http.Message
import ApiGateway.Mount.Path

/-! Which requests an endpoint admits. -/

namespace ApiGateway

/-- Lower case as far as a host can show it: hosts of requests are ASCII, and beside the capital
letters of ASCII only the Kelvin sign has a lower case in it. -/
def lowerHostChar (c : Char) : Char := if c.toNat = 0x212A then 'k' else c.toLower

/-- Whether a request is for an expected host. The port of the request does not count; a port in
the expected host is part of its text. -/
def isForHost (expected : String) (r : Request) : Bool :=
  match r.host? with
  | some authority =>
    Text.eqIgnoreCase (hostname authority) (String.ofList (expected.toList.map lowerHostChar))
  | none => false

namespace Endpoint

def mountPath (e : Endpoint) : MountPath := .ofText e.path

def admitsPath (e : Endpoint) (r : Request) : Bool := (e.mountPath.strip? r.uri.path).isSome

def admits (e : Endpoint) (r : Request) : Bool :=
  e.admitsPath r && match e.host with
    | some expected => isForHost expected r
    | none => true

end Endpoint
end ApiGateway
