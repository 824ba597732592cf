import ApiGateway.Proofs.Flight.Interleaving
import ApiGateway.Proofs.Gateway.Accounting

/-! The durations on record of a pipeline are those of its own requests, by its name alone. Names
are distinct in a valid configuration, but nothing keeps a pipeline from the name that unanswered
requests are recorded under. -/

namespace ApiGateway

def Series.pipeline? : Series → Option String
  | .requests pipeline _ => some pipeline
  | .durations pipeline => some pipeline
  | .reloads _ => none

/-! ## Pipelines and mounts -/

theorem Config.nodup_names {config : Config} (h : config.validate = .ok ()) :
    (config.pipelines.map (·.name)).Nodup :=
  (violations_eq_nil_iff.mp (validate_eq_ok.mp h)).distinct

theorem Table.exists_pipeline {registry : Registry} {config : Config} {pipelines : List Pipeline}
    {chains : List Chain} (h : List.Forall₂ (Pipeline.Makes registry config) pipelines chains)
    {mount : Mount} (hmount : mount ∈ ofChains pipelines chains) :
    ∃ pipeline ∈ pipelines, mount.endpoint ∈ pipeline.endpoints ∧
      pipeline.Makes registry config mount.chain := by
  obtain ⟨⟨chain, pipeline⟩, hzip, hmount⟩ := List.mem_flatMap.mp hmount
  obtain ⟨endpoint, hendpoint, rfl⟩ := List.mem_map.mp hmount
  exact ⟨pipeline, (List.of_mem_zip hzip).2, hendpoint, (List.forall₂_iff_zip.mp h.flip).2 hzip⟩

namespace Service

def stages (service : Service) : List Operation → List (Service × Operation)
  | [] => []
  | operation :: rest => (service, operation) :: (service.perform operation).2.stages rest

def dispatched? (service : Service) : Operation → Option (Option Nat × Request)
  | .request fresh r => some (some service.router.deadline, r.withId fresh)
  | .dispatch r => some (none, r)
  | _ => none

/-- An operation dispatches a request whose walk ends inside the chain of the pipeline of a name,
answered or failed there. -/
def EndsIn (name : String) (stage : Service × Operation) : Prop :=
  let gateway := stage.1.gateway
  ∃ pipeline ∈ gateway.config.pipelines, pipeline.name = name ∧
    ∃ deadline r position mount verdict, stage.1.dispatched? stage.2 = some (deadline, r) ∧
      gateway.table[position]? = some mount ∧ mount.endpoint ∈ pipeline.endpoints ∧
      pipeline.Makes gateway.registry gateway.config mount.chain ∧
      gateway.table.RespondsAt deadline r position verdict

def Unanswered (stage : Service × Operation) : Prop :=
  ∃ deadline r, stage.1.dispatched? stage.2 = some (deadline, r) ∧
    stage.1.gateway.table.Unanswered deadline r

variable {registry : Registry} {transport : Transport} {config : Config} {service : Service}
  {operation : Operation} {name : String}

theorem verdict?_perform {verdict : Verdict} :
    (service.perform operation).1.verdict? = some verdict ↔
      ∃ deadline r, service.dispatched? operation = some (deadline, r) ∧
        service.gateway.table.Responds deadline r verdict := by
  cases operation with
  | request fresh r =>
    rw [perform_request]
    refine (Table.verdict?_router_dispatch service.router).trans ?_
    simp [dispatched?]
  | dispatch r =>
    refine Table.verdict?_dispatch.trans ?_
    simp [dispatched?]
  | reload config =>
    cases hreload : service.gateway.reload config <;>
      simp [perform, hreload, dispatched?, Answer.verdict?]
  | rebuild => simp [perform, dispatched?, Answer.verdict?]

theorem unanswered_iff : Unanswered (service, operation) ↔
    (service.perform operation).1.verdict? = some .unmatched := by
  rw [verdict?_perform]
  constructor
  · rintro ⟨deadline, r, hdispatched, hunanswered⟩
    exact ⟨deadline, r, hdispatched, Table.responds_iff.mpr (.inr ⟨rfl, hunanswered⟩)⟩
  · rintro ⟨deadline, r, hdispatched, hresponds⟩
    rcases Table.responds_iff.mp hresponds with ⟨_, hat⟩ | ⟨_, hunanswered⟩
    · exact absurd rfl hat.ne_unmatched
    · exact ⟨deadline, r, hdispatched, hunanswered⟩

theorem endsIn_iff (h : service.gateway.Current registry transport config) :
    EndsIn name (service, operation) ↔
      ∃ verdict, (service.perform operation).1.verdict? = some verdict ∧
        verdict ≠ .unmatched ∧ verdict.pipelineLabel = name := by
  simp only [verdict?_perform]
  constructor
  · rintro ⟨pipeline, _, rfl, deadline, r, position, mount, verdict, hdispatched, hmount, _,
      hmakes, hat⟩
    refine ⟨verdict, ⟨deadline, r, hdispatched, Table.responds_iff.mpr (.inl ⟨_, hat⟩)⟩,
      hat.ne_unmatched, ?_⟩
    obtain ⟨mount', hmount', hverdict⟩ := hat.verdict_eq
    obtain rfl := Option.some.inj (hmount.symm.trans hmount')
    rw [← hmakes.name]
    rcases hverdict with rfl | ⟨_, rfl⟩ <;> rfl
  · rintro ⟨verdict, ⟨deadline, r, hdispatched, hresponds⟩, hne, rfl⟩
    rcases Table.responds_iff.mp hresponds with ⟨position, hat⟩ | ⟨hunmatched, _⟩
    · obtain ⟨mount, hmount, hverdict⟩ := hat.verdict_eq
      obtain ⟨_, _, chains, hchains, htable⟩ := Table.build_eq_ok.mp (Build.result_eq.mp h.built)
      obtain ⟨pipeline, hpipeline, hendpoint, hmakes⟩ :=
        Table.exists_pipeline hchains (htable ▸ List.mem_of_getElem? hmount)
      refine ⟨pipeline, h.config_eq ▸ hpipeline, ?_, deadline, r, position, mount, verdict,
        hdispatched, hmount, hendpoint, ?_, hat⟩
      · rw [← hmakes.name]
        rcases hverdict with rfl | ⟨_, rfl⟩ <;> rfl
      · rw [h.registry_eq, h.config_eq]
        exact hmakes
    · exact absurd hunmatched hne

/-! ## Durations on record -/

open Classical in
theorem count_durations_records (answer : Answer) (name : String) :
    answer.records.count (.durations name) =
      if ∃ verdict, answer.verdict? = some verdict ∧ verdict.pipelineLabel = name then 1
      else 0 := by
  cases answer with
  | served _ d | dispatched d =>
    unfold Answer.records
    cases Answer.verdict? _ <;> simp [Verdict.records, List.count_cons]
  | reloaded | refused | rebuilt => simp [Answer.records, Answer.verdict?]

open Classical in
theorem count_durations_perform (h : service.gateway.Current registry transport config)
    (operation : Operation) (name : String) :
    (service.perform operation).1.records.count (.durations name) =
      (if EndsIn name (service, operation) then 1 else 0) +
        if name = "none" ∧ Unanswered (service, operation) then 1 else 0 := by
  rw [count_durations_records]
  simp only [endsIn_iff h, unanswered_iff]
  cases (service.perform operation).1.verdict? with
  | none => simp
  | some verdict => cases verdict <;> simp [Verdict.pipelineLabel, eq_comm]

open Classical in
theorem count_durations_run (h : service.gateway.Current registry transport config)
    (operations : List Operation) (name : String) :
    (service.run operations).metrics.count (.durations name) =
      service.metrics.count (.durations name) +
        ((service.stages operations).countP (fun stage => EndsIn name stage) +
          (service.stages operations).countP fun stage => name = "none" ∧ Unanswered stage) := by
  induction operations generalizing service config with
  | nil => rfl
  | cons operation rest ih =>
    have hrest := ih (current_perform h operation)
    rw [adds_perform service operation, count_durations_perform h] at hrest
    simp only [stages, List.countP_cons, decide_eq_true_eq]
    exact hrest.trans (by omega)

theorem current_stages (h : service.gateway.Current registry transport config)
    (operations : List Operation) :
    ∀ stage ∈ service.stages operations,
      ∃ current, stage.1.gateway.Current registry transport current := by
  induction operations generalizing service config with
  | nil => exact List.forall_mem_nil _
  | cons operation rest ih =>
    exact List.forall_mem_cons.mpr ⟨⟨config, h⟩, ih (current_perform h operation)⟩

theorem count_perform_of_unanswered (h : Unanswered (service, operation)) {series : Series}
    (hseries : series.pipeline? ≠ some "none") :
    (service.perform operation).2.metrics.count series = service.metrics.count series := by
  rw [adds_perform service operation, Answer.records_of_verdict? (unanswered_iff.mp h),
    List.count_eq_zero_of_not_mem, Nat.add_zero]
  intro hmem
  obtain rfl | rfl := List.mem_pair.mp hmem <;> exact hseries rfl

open Classical in
/-- Whatever is loaded, run and reloaded, the durations of a pipeline that is not called `none` are
as many as the dispatches whose walk ended in its chain, and no unanswered request is on record for
it. The durations under `none` are those of unanswered requests and, if a pipeline has that name, of
its own. -/
theorem run_separates_pipelines {gateway : Gateway}
    (hload : (Gateway.load registry config).result = .ok gateway) (operations : List Operation) :
    let stages := (start gateway).stages operations
    let metrics := ((start gateway).run operations).metrics
    (∀ name, name ≠ "none" →
      metrics.count (.durations name) = stages.countP fun stage => EndsIn name stage) ∧
    metrics.count (.durations "none") =
      stages.countP (fun stage => EndsIn "none" stage) +
        stages.countP (fun stage => Unanswered stage) ∧
    (∀ stage ∈ stages, Unanswered stage → ∀ series, series.pipeline? ≠ some "none" →
      (stage.1.perform stage.2).2.metrics.count series = stage.1.metrics.count series) ∧
    ∀ stage ∈ stages, (stage.1.gateway.config.pipelines.map (·.name)).Nodup := by
  intro stages metrics
  have hcurrent := Gateway.current_of_load hload
  have hcount : ∀ name, metrics.count (.durations name) =
      stages.countP (fun stage => EndsIn name stage) +
        stages.countP fun stage => name = "none" ∧ Unanswered stage := fun name =>
    (count_durations_run hcurrent operations name).trans (Nat.zero_add _)
  refine ⟨fun name hname => ?_, ?_, ?_, ?_⟩
  · rw [hcount]
    simp only [hname, false_and, decide_false, List.countP_false, Function.const_apply,
      Nat.add_zero]
  · rw [hcount]
    simp only [true_and]
  · exact fun _ _ h _ hseries => count_perform_of_unanswered h hseries
  · intro stage hstage
    obtain ⟨current, h⟩ := current_stages hcurrent operations stage hstage
    rw [h.config_eq]
    exact Config.nodup_names (Table.build_eq_ok.mp (Build.result_eq.mp h.built)).1

end Service

/-! One pipeline, mounted at `/a`. -/

def Config.named (name : String) : Config :=
  { Config.default with pipelines := [⟨name, [⟨none, "old", .null⟩], [⟨"/a", none⟩]⟩] }

def Gateway.named (name : String) : Gateway where
  registry := .naming
  config := .named name
  table := [⟨⟨"/a", none⟩, name, [⟨"old", .always, .naming "old"⟩]⟩]
  transport := .plain

namespace Service

def toPipeline : Operation := .dispatch (.ofUri ⟨none, none, "/a", none⟩)

def toNone : Operation := .dispatch (.ofUri .root)

def visiting : List Operation := [toPipeline, toNone, .reload (.named "c"), toPipeline]

open Classical in
theorem run_separates_pipelines_visiting :
    (Gateway.load .naming (.named "b")).result = .ok (.named "b") ∧
      ((start (.named "b")).stages visiting).countP (fun stage => EndsIn "b" stage) = 1 ∧
      ((start (.named "b")).stages visiting).countP (fun stage => EndsIn "c" stage) = 1 := by
  have hload : (Gateway.load .naming (.named "b")).result = .ok (.named "b") := rfl
  obtain ⟨hown, _⟩ := run_separates_pipelines hload visiting
  exact ⟨hload, (hown "b" (by decide)).symm.trans rfl, (hown "c" (by decide)).symm.trans rfl⟩

open Classical in
/-- A valid configuration may call a pipeline `none`, and then a request that the pipeline never
sees is among its durations. -/
theorem durations_of_pipeline_none :
    (Gateway.load .naming (.named "none")).result = .ok (.named "none") ∧
      (Config.named "none").pipelines.map (·.name) = ["none"] ∧
      ((start (.named "none")).run [toPipeline, toNone]).metrics.count (.durations "none") = 2 ∧
      ((start (.named "none")).stages [toPipeline, toNone]).countP
        (fun stage => EndsIn "none" stage) = 1 := by
  have hload : (Gateway.load .naming (.named "none")).result = .ok (.named "none") := rfl
  have hcurrent := Gateway.current_of_load hload
  have hanswered : EndsIn "none" (start (.named "none"), toPipeline) :=
    (endsIn_iff hcurrent).mpr ⟨.handled "none", rfl, nofun, rfl⟩
  have hunanswered :
      ¬ EndsIn "none" (((start (.named "none")).perform toPipeline).2, toNone) := by
    rw [endsIn_iff (current_perform hcurrent toPipeline)]
    rintro ⟨verdict, hverdict, hne, _⟩
    exact hne (Option.some.inj (hverdict.symm.trans rfl))
  refine ⟨hload, rfl, rfl, ?_⟩
  simp only [stages, List.countP_cons, List.countP_nil, hanswered, hunanswered, decide_true,
    decide_false, if_true, Bool.false_eq_true, if_false]

end Service
end ApiGateway
