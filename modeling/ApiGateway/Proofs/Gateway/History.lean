import ApiGateway.Gateway.Service
import ApiGateway.Proofs.Gateway.Loading

/-! The history of a gateway leaves nothing behind but the last configuration that was accepted. -/

namespace ApiGateway
namespace Service

def history (service : Service) : List Operation → List (Operation × Answer)
  | [] => []
  | operation :: rest =>
    (operation, (service.perform operation).1) :: (service.perform operation).2.history rest

end Service

def Config.afterAnswer (config : Config) : Operation × Answer → Config
  | (.reload next, .reloaded _) => next
  | _ => config

def Config.lastAccepted (config : Config) (history : List (Operation × Answer)) : Config :=
  history.foldl Config.afterAnswer config

structure Gateway.Current (registry : Registry) (transport : Transport) (config : Config)
    (gateway : Gateway) : Prop where
  registry_eq : gateway.registry = registry
  transport_eq : gateway.transport = transport
  config_eq : gateway.config = config
  built : (Table.build registry config).result = .ok gateway.table

namespace Gateway

variable {registry : Registry} {transport : Transport} {config next : Config} {gateway : Gateway}

theorem current_of_load (h : (load registry config).result = .ok gateway) :
    gateway.Current registry (.ofConfig config) config := by
  obtain ⟨hbuild, hgateway⟩ := load_eq_ok.mp (Build.result_eq.mp h)
  rw [hgateway]
  exact ⟨rfl, rfl, rfl, congrArg Build.result hbuild⟩

theorem Current.load (h : gateway.Current registry transport config) :
    (load registry config).result = .ok ⟨registry, config, gateway.table, .ofConfig config⟩ :=
  congrArg Build.result (load_of_build (Build.result_eq.mp h.built))

theorem Current.reload (h : gateway.Current registry transport config) {replaced : Gateway}
    (hreload : gateway.reload next = .ok replaced) : replaced.Current registry transport next := by
  unfold Gateway.reload at hreload
  rw [h.registry_eq] at hreload
  cases hbuild : (Table.build registry next).result with
  | error e => rw [hbuild] at hreload; cases hreload
  | ok table =>
    rw [hbuild] at hreload
    obtain rfl := Except.ok.inj hreload
    exact ⟨h.registry_eq, h.transport_eq, rfl, hbuild⟩

end Gateway

namespace Service

variable {registry : Registry} {transport : Transport} {config : Config} {service : Service}

theorem current_perform (h : service.gateway.Current registry transport config)
    (operation : Operation) :
    (service.perform operation).2.gateway.Current registry transport
      (config.afterAnswer (operation, (service.perform operation).1)) := by
  cases operation with
  -- the router and the totals are no part of the gateway
  | request | dispatch | rebuild => exact h
  | reload next =>
    cases hreload : service.gateway.reload next with
    | error e =>
      simp only [perform, hreload, Config.afterAnswer]
      exact h
    | ok gateway =>
      simp only [perform, hreload, Config.afterAnswer]
      exact h.reload hreload

theorem current_run (h : service.gateway.Current registry transport config)
    (operations : List Operation) :
    (service.run operations).gateway.Current registry transport
      (config.lastAccepted (service.history operations)) := by
  induction operations generalizing service config with
  | nil => exact h
  | cons operation rest ih => exact ih (current_perform h operation)

theorem gateway_perform_of_refused {next : Config} {e : ConfigurationError}
    (h : (service.perform (.reload next)).1 = .refused e) :
    (service.perform (.reload next)).2.gateway = service.gateway := by
  cases hreload : service.gateway.reload next with
  | error e => simp only [perform, hreload]
  | ok gateway => simp only [perform, hreload, reduceCtorEq] at h

/-- After any operations a gateway has the configuration accepted last, the table of that
configuration and the transport it was loaded with, and it answers requests as a gateway freshly
loaded from that configuration does. A refused reload leaves it as it was. -/
theorem run_forgets_history {gateway : Gateway} {operations : List Operation}
    (hload : (Gateway.load registry config).result = .ok gateway)
    (hrun : (start gateway).run operations = service) :
    service.gateway.registry = registry ∧
    service.gateway.config = config.lastAccepted ((start gateway).history operations) ∧
    (Table.build registry service.gateway.config).result = .ok service.gateway.table ∧
    service.gateway.transport = .ofConfig config ∧
    (∃ fresh, (Gateway.load registry service.gateway.config).result = .ok fresh ∧
      (∀ r, (service.perform (.dispatch r)).1 = ((start fresh).perform (.dispatch r)).1) ∧
      ∀ (router : Router) id r,
        router.serve service.gateway.table id r = router.serve fresh.table id r) ∧
    ∀ next e, (service.perform (.reload next)).1 = .refused e →
      (service.perform (.reload next)).2.gateway = service.gateway := by
  have h : service.gateway.Current registry (.ofConfig config)
      (config.lastAccepted ((start gateway).history operations)) :=
    hrun ▸ current_run (Gateway.current_of_load hload) operations
  refine ⟨h.registry_eq, h.config_eq, ?_, h.transport_eq, ?_,
    fun _ _ => gateway_perform_of_refused⟩
  · rw [h.config_eq]
    exact h.built
  · rw [h.config_eq]
    exact ⟨_, h.load, fun _ => rfl, fun _ _ _ => rfl⟩

end Service

def Config.single (action path : String) (tls : Option TlsFiles) : Config :=
  { Config.default with pipelines := [⟨path, [⟨none, action, .null⟩], [⟨path, none⟩]⟩], tls }

def Registry.passing : Registry := (Registry.empty.register "pass" fun _ _ => .ok Reaction.pass).2

def Gateway.passing : Gateway where
  registry := .passing
  config := .single "pass" "/a" none
  table := [⟨⟨"/a", none⟩, "/a", [⟨"pass", .always, Reaction.pass⟩]⟩]
  transport := .plain

namespace Service

def reloads : List Operation :=
  [.reload (.single "pass" "/b" (some ⟨"key.pem", "cert.pem"⟩)), .rebuild,
    .dispatch (.ofUri ⟨none, none, "/b", none⟩), .reload (.single "missing" "/c" none)]

theorem run_reloads_passing :
    (Gateway.load .passing (.single "pass" "/a" none)).result = .ok .passing ∧
      ((start .passing).run reloads).gateway.config =
        .single "pass" "/b" (some ⟨"key.pem", "cert.pem"⟩) ∧
      ((start .passing).run reloads).gateway.transport = .plain := by
  have hload : (Gateway.load .passing (.single "pass" "/a" none)).result = .ok .passing := rfl
  have hrun : (start .passing).run reloads = (start .passing).run reloads := rfl
  obtain ⟨_, hconfig, _, htransport, _⟩ := run_forgets_history hload hrun
  exact ⟨hload, hconfig, htransport⟩

end Service
end ApiGateway
