import ApiGateway.Mount.Dispatch

/-! The router around dispatch: layer upon layer, each a function of what is inside it. Panics are
kept in, a deadline is kept, ids go from requests to responses. -/

namespace ApiGateway

/-- A router has a deadline: the milliseconds from the arrival of a request until it is given up. -/
structure Router where
  deadline : Nat
deriving DecidableEq

/-- Thirty years of 365 days, in seconds: no deadline lies beyond. -/
def Router.horizon : Nat := 30 * 365 * 86400

def Router.ofSeconds (seconds : Nat) : Router := ⟨1000 * min seconds horizon⟩

def Request.withId (r : Request) (fresh : HeaderValue) : Request :=
  match r.headers.get? .requestId with
  | some _ => r
  | none => { r with headers := r.headers.set .requestId fresh }

def Response.withId (response : Response) (id : Option HeaderValue) : Response :=
  match response.headers.get? .requestId, id with
  | none, some id => { response with headers := response.headers.set .requestId id }
  | _, _ => response

/-- The response as its method allows it: `HEAD` never has a body, `CONNECT` none on success. -/
def Response.forMethod (response : Response) (m : Method) : Response :=
  if m = .head || (m = .connect && response.isSuccess) then { response with body := [] }
  else response

/-! ## Layers -/

inductive Loss where
  | panicked
  | stalled
  | overdue

/-- What takes a request until it is dropped, if it is: the response, and what was done for it. -/
abbrev Attempt := Option Nat → Request → Except Loss Response × Dispatch

abbrev Handling := Request → Response × Dispatch

def Conclusion.outcome : Conclusion → Except Loss Response
  | .responded _ response => .ok response
  | .panicked => .error .panicked
  | .stalled => .error .stalled
  | .overdue => .error .overdue

namespace Attempt

def ofTable (table : Table) : Attempt := fun dropped r =>
  let dispatch := table.dispatch dropped r
  (dispatch.conclusion.outcome, dispatch)

def catchPanic (inner : Attempt) : Attempt := fun dropped r =>
  match inner dropped r with
  | (.error .panicked, dispatch) => (.ok .panicked, dispatch)
  | other => other

/-- The timer is looked at before what is inside, so that nothing is begun at an empty limit; at the
limit what is inside is dropped. -/
def timeout (limit : Nat) (inner : Attempt) : Handling := fun r =>
  if limit = 0 then (.timedOut, ⟨[], 0, .overdue⟩)
  else
    match inner (some limit) r with
    | (.ok response, dispatch) => (response, dispatch)
    | (.error _, dispatch) => (.timedOut, dispatch)

end Attempt

namespace Handling

def propagateId (inner : Handling) : Handling := fun r =>
  let (response, dispatch) := inner r
  (response.withId (r.headers.get? .requestId), dispatch)

def setId (fresh : HeaderValue) (inner : Handling) : Handling := fun r => inner (r.withId fresh)

def trimBody (inner : Handling) : Handling := fun r =>
  let (response, dispatch) := inner r
  (response.forMethod r.method, dispatch)

end Handling

namespace Router

/-- Serves requests, from the inside out; `fresh` is the id for one that carries none. -/
def serve (router : Router) (table : Table) (fresh : HeaderValue) : Handling :=
  Attempt.ofTable table
    |> Attempt.catchPanic
    |> Attempt.timeout router.deadline
    |> Handling.propagateId
    |> Handling.setId fresh
    |> Handling.trimBody

end Router

/-! ## What the layers come to -/

def Conclusion.response : Conclusion → Response
  | .responded _ response => response
  | .panicked => .panicked
  | .stalled => .timedOut
  | .overdue => .timedOut

namespace Router

def dispatch (router : Router) (table : Table) (r : Request) : Dispatch :=
  if router.deadline = 0 then ⟨[], 0, .overdue⟩ else table.dispatch (some router.deadline) r

theorem timeout_catchPanic (router : Router) (table : Table) (r : Request) :
    Attempt.timeout router.deadline (Attempt.catchPanic (.ofTable table)) r =
      ((router.dispatch table r).conclusion.response, router.dispatch table r) := by
  unfold Attempt.timeout dispatch
  split
  next => rfl
  next =>
    simp only [Attempt.catchPanic, Attempt.ofTable]
    cases (table.dispatch (some router.deadline) r).conclusion <;> rfl

theorem serve_eq (router : Router) (table : Table) (fresh : HeaderValue) (r : Request) :
    let dispatch := router.dispatch table (r.withId fresh)
    router.serve table fresh r =
      ((dispatch.conclusion.response.withId ((r.withId fresh).headers.get? .requestId)).forMethod
        r.method, dispatch) := by
  simp only [serve, Handling.trimBody, Handling.setId, Handling.propagateId, timeout_catchPanic]

theorem snd_serve (router : Router) (table : Table) (fresh : HeaderValue) (r : Request) :
    (router.serve table fresh r).2 = router.dispatch table (r.withId fresh) :=
  congrArg Prod.snd (router.serve_eq table fresh r)

end Router
end ApiGateway
