import ApiGateway.Proofs.Gateway.History
import ApiGateway.Proofs.Mount.Deadline
import ApiGateway.Proofs.Mount.Dispatch

/-! A router answers as the dispatch behind it does. Its deadline is that of the configuration it
was built for, and decides how much of the dispatch takes place; the table is the one of the
present. -/

namespace ApiGateway

/-- A response shows an answer to a request of some method: with its status and content type, and
with its body if responses to such requests have one. -/
structure Response.Shows (response answer : Response) (m : Method) : Prop where
  status_eq : response.status = answer.status
  contentType_eq : response.headers.get? .contentType = answer.headers.get? .contentType
  body_eq : response.body = if m = .head ∨ m = .connect ∧ answer.isSuccess then [] else answer.body

namespace Response

variable {response answer : Response} {id : HeaderValue}

theorem withId_eq (answer : Response) (id : HeaderValue) :
    answer.withId (some id) =
      { answer with
        headers := if (answer.headers.get? .requestId).isSome then answer.headers
          else answer.headers.set .requestId id } := by
  unfold withId
  cases answer.headers.get? .requestId <;> rfl

theorem headers_forMethod (answer : Response) (m : Method) :
    (answer.forMethod m).headers = answer.headers := by
  unfold forMethod
  split <;> rfl

theorem status_forMethod (answer : Response) (m : Method) :
    (answer.forMethod m).status = answer.status := by
  unfold forMethod
  split <;> rfl

theorem body_forMethod (answer : Response) (m : Method) :
    (answer.forMethod m).body =
      if m = .head ∨ m = .connect ∧ answer.isSuccess then [] else answer.body := by
  simp only [forMethod, Bool.or_eq_true, Bool.and_eq_true, decide_eq_true_eq]
  split <;> rfl

theorem shows_withId_forMethod (answer : Response) (id : HeaderValue) (m : Method) :
    ((answer.withId (some id)).forMethod m).Shows answer m where
  status_eq := by rw [status_forMethod, withId_eq]
  contentType_eq := by
    rw [headers_forMethod, withId_eq]
    split
    · rfl
    · exact Headers.get?_set_of_ne (by decide)
  body_eq := by
    rw [body_forMethod, withId_eq]
    rfl

end Response

namespace Table

variable {table : Table} {r : Request}

theorem conclusion_dispatch_none (hstalled : (table.dispatch none r).conclusion ≠ .stalled) :
    (table.dispatch none r).conclusion = .panicked ∨
      ∃ verdict answer, (table.dispatch none r).conclusion = .responded verdict answer := by
  obtain ⟨w, time, _, hends⟩ := conclusion_dispatch.mp (Eq.refl (table.dispatch none r).conclusion)
  revert hends hstalled
  generalize (table.dispatch none r).conclusion = conclusion
  intro hstalled hends
  cases hends with
  | panicked => exact .inl rfl
  | stalled => exact absurd rfl hstalled
  | _ => exact .inr ⟨_, _, rfl⟩

end Table

namespace Router

variable {r : Request} {id : HeaderValue}

theorem serve_of_id (router : Router) (table : Table) (fresh : HeaderValue)
    (hid : r.headers.get? .requestId = some id) :
    router.serve table fresh r =
      (((router.dispatch table r).conclusion.response.withId (some id)).forMethod r.method,
        router.dispatch table r) := by
  have hwith : r.withId fresh = r := by simp only [Request.withId, hid]
  simp only [serve_eq, hwith, hid]

theorem serve_agrees (router : Router) (table : Table) (fresh : HeaderValue)
    (hid : r.headers.get? .requestId = some id) :
    let free := table.dispatch none r
    let served := router.serve table fresh r
    served.2.calls = free.calls.filter (·.2.time < router.deadline) ∧
      (¬ free.EndsBefore router.deadline → served.1.Shows .timedOut r.method) ∧
      (free.EndsBefore router.deadline →
        free.conclusion = .panicked ∧ served.1.Shows .panicked r.method ∨
          ∃ verdict answer, free.conclusion = .responded verdict answer ∧
            served.1.Shows answer r.method) := by
  intro free served
  have hcut := router.cut_dispatch table r
  have hserved : served = _ := router.serve_of_id table fresh hid
  have hshows : served.1.Shows (router.dispatch table r).conclusion.response r.method := by
    rw [hserved]
    exact Response.shows_withId_forMethod _ _ _
  refine ⟨?_, fun hends => ?_, fun hends => ?_⟩
  · rw [hserved]
    exact hcut.calls_eq
  · rwa [hcut.overdue hends] at hshows
  · rw [hcut.ended hends] at hshows
    rcases Table.conclusion_dispatch_none hends.1 with hpanicked | ⟨verdict, answer, hresponded⟩
    · rw [hpanicked] at hshows
      exact .inl ⟨hpanicked, hshows⟩
    · rw [hresponded] at hshows
      exact .inr ⟨verdict, answer, hresponded, hshows⟩

end Router

namespace Service

variable {service : Service} {operations : List Operation}

theorem router_run (hkept : Operation.rebuild ∉ operations) :
    (service.run operations).router = service.router := by
  induction operations generalizing service with
  | nil => rfl
  | cons operation rest ih =>
    obtain ⟨hfirst, hrest⟩ := not_or.mp (mt List.mem_cons.mpr hkept)
    have hrouter : (service.perform operation).2.router = service.router := by
      cases operation with
      | request | dispatch => rfl
      | rebuild => exact absurd rfl hfirst
      | reload config =>
        simp only [perform]
        split <;> rfl
    exact (ih hrest).trans hrouter

/-- A router gives the response of the present table, cut off at the deadline of the configuration
it was built for, or at the horizon if that is nearer. It calls the handlers that the dispatch
without a deadline calls before then. What it gives is the answer of that dispatch if it ends
before then, with a status of its own if a handler panics or if it does not end in time; `HEAD`
never has a body, and `CONNECT` has none on success. -/
theorem request_agrees_dispatch (built : Service) (operations : List Operation)
    (fresh : HeaderValue) (r : Request) (hkept : Operation.rebuild ∉ operations)
    (hid : (r.headers.get? .requestId).isSome) :
    let service := built.run (.rebuild :: operations)
    let limit := 1000 * min built.gateway.config.timeouts.requestSecs Router.horizon
    let free := service.gateway.table.dispatch none r
    (service.perform (.dispatch r)).1 = .dispatched free ∧
      ∃ response bound, (service.perform (.request fresh r)).1 = .served response bound ∧
        bound.calls = free.calls.filter (·.2.time < limit) ∧
        (¬ free.EndsBefore limit → response.Shows .timedOut r.method) ∧
        (free.EndsBefore limit →
          free.conclusion = .panicked ∧ response.Shows .panicked r.method ∨
            ∃ verdict answer, free.conclusion = .responded verdict answer ∧
              response.Shows answer r.method) := by
  intro service limit free
  obtain ⟨id, hid⟩ := Option.isSome_iff_exists.mp hid
  have hrouter : service.router = .ofSeconds built.gateway.config.timeouts.requestSecs :=
    router_run hkept
  have hlimit : service.router.deadline = limit := congrArg Router.deadline hrouter
  have hserved := service.router.serve_agrees service.gateway.table fresh hid
  rw [hlimit] at hserved
  exact ⟨rfl, _, _, rfl, hserved⟩

end Service

/-! Handlers that take their time. -/

def Handler.passing (delay : Nat) : Handler := fun r => .settle delay (.ok (.pass r))

def Handler.answering (delay : Nat) : Handler := fun _ =>
  .settle delay (.ok (.answer (.ofText 200 "late")))

def Gateway.late (requestSecs : Nat) (handler : Handler) : Gateway where
  registry := (Registry.empty.register "late" fun _ _ => .ok handler).2
  config := { Config.default with timeouts := ⟨requestSecs⟩ }
  table := [⟨⟨"/", none⟩, "late", [⟨"late", .always, handler⟩]⟩]
  transport := .plain

def Config.lateThrice : Config :=
  { Config.default with
    pipelines := [⟨"late", .replicate 3 ⟨none, "late", .null⟩, [⟨"/", none⟩]⟩] }

def HeaderValue.short : HeaderValue := ⟨[105], by decide⟩

def Request.identified (m : Method) : Request :=
  { Request.ofUri .root with method := m, headers := [(.requestId, .short)] }

namespace Service

/-- Three handlers that take 400 milliseconds each, behind a router built for one second: all are
begun in time, and the third is not done in time. That a reload, which brought them, has since
allowed thirty seconds does not count. -/
theorem request_agrees_dispatch_late :
    ∃ response bound,
      (((start (.late 1 (.passing 400))).run [.rebuild, .reload .lateThrice]).perform
        (.request .short (.identified .get))).1 = .served response bound ∧
      response.status = 408 ∧ bound.calls.map (·.2.time) = [0, 400, 800] := by
  obtain ⟨_, response, bound, hserved, hcalls, hlate, _⟩ :=
    request_agrees_dispatch (start (.late 1 (.passing 400))) [.reload .lateThrice] .short
      (.identified .get) (by simp) rfl
  refine ⟨response, bound, hserved, ?_, hcalls ▸ rfl⟩
  have hends : ¬ 1200 < 1000 := by decide
  exact (hlate fun h => hends h.2).status_eq

/-- A successful answer to `CONNECT` loses its body, and no router waits beyond the horizon. -/
theorem router_departs_from_dispatch :
    (let gateway := Gateway.late 30 (.answering 0)
      ∃ response bound verdict answer,
        ((start gateway).perform (.request .short (.identified .connect))).1 =
          .served response bound ∧
        (gateway.table.dispatch none (.identified .connect)).conclusion =
          .responded verdict answer ∧
        (gateway.table.dispatch none (.identified .connect)).time <
          1000 * gateway.config.timeouts.requestSecs ∧
        Method.connect ≠ .head ∧ response.body ≠ answer.body) ∧
    let gateway := Gateway.late (Router.horizon + 1) (.answering (1000 * Router.horizon))
    ∃ response bound verdict answer,
      ((start gateway).perform (.request .short (.identified .get))).1 = .served response bound ∧
      (gateway.table.dispatch none (.identified .get)).conclusion = .responded verdict answer ∧
      (gateway.table.dispatch none (.identified .get)).time <
        1000 * gateway.config.timeouts.requestSecs ∧
      response.status ≠ answer.status :=
  ⟨⟨_, _, _, _, rfl, rfl, by decide, by decide, by decide⟩,
    ⟨_, _, _, _, rfl, rfl, by decide, by decide⟩⟩

end Service
end ApiGateway
