import ApiGateway.Gateway.Basic
import ApiGateway.Gateway.Metrics

/-! A gateway in service: one operation after another, with the router in use and the totals. -/

namespace ApiGateway

structure Service where
  gateway : Gateway
  router : Router
  metrics : Metrics

inductive Operation where
  | request (fresh : HeaderValue) (r : Request)
  | dispatch (r : Request)
  | reload (config : Config)
  | rebuild

inductive Answer where
  | served (response : Response) (dispatch : Dispatch)
  | dispatched (dispatch : Dispatch)
  | reloaded (mounts : Nat)
  | refused (error : ConfigurationError)
  | rebuilt

namespace Service

def start (gateway : Gateway) : Service := ⟨gateway, gateway.router, []⟩

def perform (service : Service) : Operation → Answer × Service
  | .request fresh r =>
    let (response, dispatch) := service.router.serve service.gateway.table fresh r
    (.served response dispatch, { service with metrics := service.metrics.recordDispatch dispatch })
  | .dispatch r =>
    let dispatch := service.gateway.table.dispatch none r
    (.dispatched dispatch, { service with metrics := service.metrics.recordDispatch dispatch })
  | .reload config =>
    match service.gateway.reload config with
    | .ok gateway =>
      (.reloaded gateway.table.length,
        { service with gateway, metrics := service.metrics.recordReload true })
    | .error e => (.refused e, { service with metrics := service.metrics.recordReload false })
  | .rebuild => (.rebuilt, { service with router := service.gateway.router })

theorem perform_request (service : Service) (fresh : HeaderValue) (r : Request) :
    let dispatch := service.router.dispatch service.gateway.table (r.withId fresh)
    service.perform (.request fresh r) =
      (.served (service.router.serve service.gateway.table fresh r).1 dispatch,
        { service with metrics := service.metrics.recordDispatch dispatch }) := by
  simp only [← Router.snd_serve]
  rfl

def run (service : Service) (operations : List Operation) : Service :=
  operations.foldl (fun service operation => (service.perform operation).2) service

end Service
end ApiGateway
