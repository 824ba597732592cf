import ApiGateway.Chain.Basic
import ApiGateway.Condition.Evaluate

/-! Running a chain on a request. Time passes only inside handlers. -/

namespace ApiGateway

inductive ChainError where
  | evaluation (action : String) (error : EvaluationError)
  | handler (action : String) (error : HandlerError)
deriving DecidableEq

namespace ChainError

def causes : ChainError → List String
  | .evaluation _ error => [error.message]
  | .handler _ error => error.message :: error.causes

def message : ChainError → String
  | .evaluation action error =>
    s!"condition for action \"{action}\" could not be evaluated: " ++ error.message
  | .handler action error => s!"action \"{action}\" failed: " ++ error.message

end ChainError

/-- A step reached: the request its condition saw, the time in milliseconds, and whether its handler was
called. -/
structure Visit where
  step : Nat
  action : String
  request : Request
  time : Nat
  called : Bool

inductive Ending where
  | handled (response : Response)
  | unhandled (request : Request)
  | failed (error : ChainError)
  | panicked
  | stalled
  | overdue

structure Run where
  visits : List Visit
  time : Nat
  ending : Ending

namespace Run

def after (visit : Visit) (run : Run) : Run := { run with visits := visit :: run.visits }

def calls (run : Run) : List Visit := run.visits.filter Visit.called

end Run

/-- Whether a deadline has come; what settles at that very time is too late. -/
def isDue (deadline : Option Nat) (time : Nat) : Bool :=
  match deadline with
  | some limit => limit ≤ time
  | none => false

def runSteps (deadline : Option Nat) : Nat → List Step → Request → Nat → Run
  | _, [], r, time => ⟨[], time, .unhandled r⟩
  | position, step :: rest, r, time =>
    let visit : Visit := ⟨position, step.action, r, time, false⟩
    let call : Visit := { visit with called := true }
    match step.condition.evaluate r.view with
    | .error e => ⟨[visit], time, .failed (.evaluation step.action e)⟩
    | .ok false => (runSteps deadline (position + 1) rest r time).after visit
    | .ok true =>
      match step.handler r with
      | .stall => ⟨[call], time, if deadline.isSome then .overdue else .stalled⟩
      | .settle delay result =>
        let time := time + delay
        if isDue deadline time then ⟨[call], time, .overdue⟩
        else match result with
          | .ok (.answer response) => ⟨[call], time, .handled response⟩
          | .ok (.pass next) => (runSteps deadline (position + 1) rest next time).after call
          | .error (.error e) => ⟨[call], time, .failed (.handler step.action e)⟩
          | .error .panic => ⟨[call], time, .panicked⟩

def Chain.run (deadline : Option Nat) (chain : Chain) (r : Request) (time : Nat) : Run :=
  runSteps deadline 0 chain.steps r time

end ApiGateway
