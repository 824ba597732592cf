import ApiGateway.Config.Basic
import ApiGateway.Http.Message

/-! Actions: what a handler does with a request, and how handlers are made. -/

namespace ApiGateway

structure HandlerError where
  message : String
  causes : List String
deriving DecidableEq

inductive Outcome where
  | answer (response : Response)
  | pass (request : Request)

inductive Fault where
  | error (error : HandlerError)
  | panic

/-- How a handler takes a request: after some milliseconds it settles, or it never does. -/
inductive Reaction where
  | settle (delay : Nat) (result : Except Fault Outcome)
  | stall

/-- Handlers are functions: they keep nothing from one request to the next. -/
abbrev Handler := Request → Reaction

abbrev Constructor := Json → Config → Except String Handler

namespace Outcome

def text : Outcome → String
  | .answer response => s!"Handled({response.status})"
  | .pass request => "Continue(" ++ request.uri.text ++ ")"

end Outcome

namespace Reaction

def answer (response : Response) : Reaction := .settle 0 (.ok (.answer response))

def pass (request : Request) : Reaction := .settle 0 (.ok (.pass request))

def fail (error : HandlerError) : Reaction := .settle 0 (.error (.error error))

end Reaction
end ApiGateway
