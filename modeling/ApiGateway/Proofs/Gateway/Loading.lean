import ApiGateway.Gateway.Basic
import ApiGateway.Proofs.Chain.Compile
import ApiGateway.Proofs.Config.Validation

/-! Loading a gateway is all or nothing, and goes by declared order: in the mounts, in the calls of
constructors and in which of several faults is reported. -/

namespace ApiGateway

namespace Config

def constructions (pipelines : List Pipeline) : List Construction :=
  pipelines.flatMap fun pipeline => Pipeline.constructions pipeline.name pipeline.processors

theorem constructions_eq (pipelines : List Pipeline) (index : Nat) :
    ((pipelines.zipIdx index).flatMap fun entry =>
      Pipeline.constructions entry.1.name entry.1.processors) = constructions pipelines := by
  conv_rhs => rw [constructions, ← List.zipIdx_map_fst index pipelines, List.flatMap_map]

end Config

namespace Table

variable {registry : Registry} {config : Config} {calls : List Construction}

theorem build_eq_ok {table : Table} :
    build registry config = ⟨calls, .ok table⟩ ↔
      config.validate = .ok () ∧ calls = Config.constructions config.pipelines ∧
        ∃ chains, List.Forall₂ (Pipeline.Makes registry config) config.pipelines chains ∧
          ofChains config.pipelines chains = table := by
  unfold build
  split
  next errors herrors => simp [Build.refuse, herrors]
  next hvalid =>
    rw [Build.andThen_done_eq_ok]
    simp only [Build.each_eq_ok fun _ => Pipeline.compile_eq_ok registry config,
      Config.constructions_eq, hvalid, true_and]
    constructor
    · rintro ⟨chains, ⟨hchains, rfl⟩, htable⟩
      exact ⟨rfl, chains, hchains, htable⟩
    · rintro ⟨rfl, chains, hchains, htable⟩
      exact ⟨chains, ⟨hchains, rfl⟩, htable⟩

theorem build_eq_error (hvalid : config.validate = .ok ()) {e : ConfigurationError} :
    build registry config = ⟨calls, .error e⟩ ↔
      ∃ before pipeline after done p rest called,
        config.pipelines = before ++ pipeline :: after ∧
        pipeline.processors = done ++ p :: rest ∧
        (∀ earlier ∈ before, ∀ p ∈ earlier.processors, p.Accepted registry config) ∧
        (∀ earlier ∈ done, earlier.Accepted registry config) ∧
        p.Fails registry config pipeline.name done.length called e ∧
        calls = Config.constructions before ++
          (Pipeline.constructions pipeline.name done ++ called) := by
  unfold build
  simp only [hvalid, Build.andThen_done_eq_error,
    Build.each_eq_error fun _ => Pipeline.compile_eq_ok registry config, Config.constructions_eq,
    Pipeline.exists_makes, Pipeline.compile_eq_error]
  constructor
  · rintro ⟨before, pipeline, after, _, hpipelines, hbefore,
      ⟨done, p, rest, called, hprocessors, hdone, hfails, rfl⟩, rfl⟩
    exact ⟨before, pipeline, after, done, p, rest, called, hpipelines, hprocessors, hbefore, hdone,
      hfails, rfl⟩
  · rintro ⟨before, pipeline, after, done, p, rest, called, hpipelines, hprocessors, hbefore,
      hdone, hfails, rfl⟩
    exact ⟨before, pipeline, after, _, hpipelines, hbefore,
      ⟨done, p, rest, called, hprocessors, hdone, hfails, rfl⟩, rfl⟩

theorem build_of_violations {errors : List ValidationError}
    (h : config.validate = .error errors) :
    build registry config = ⟨[], .error (.invalid errors)⟩ := by
  simp only [build, h, Build.refuse]

end Table

namespace Gateway

variable {registry : Registry} {config : Config} {calls : List Construction}

theorem load_eq_ok {gateway : Gateway} :
    load registry config = ⟨calls, .ok gateway⟩ ↔
      Table.build registry config = ⟨calls, .ok gateway.table⟩ ∧
        gateway = ⟨registry, config, gateway.table, .ofConfig config⟩ := by
  rw [load, Build.andThen_done_eq_ok]
  constructor
  · rintro ⟨table, htable, rfl⟩
    exact ⟨htable, rfl⟩
  · rintro ⟨htable, hgateway⟩
    exact ⟨gateway.table, htable, hgateway.symm⟩

theorem load_of_build {table : Table} (h : Table.build registry config = ⟨calls, .ok table⟩) :
    load registry config = ⟨calls, .ok ⟨registry, config, table, .ofConfig config⟩⟩ :=
  load_eq_ok.mpr ⟨h, rfl⟩

theorem load_eq_error {e : ConfigurationError} :
    load registry config = ⟨calls, .error e⟩ ↔
      Table.build registry config = ⟨calls, .error e⟩ := Build.andThen_done_eq_error

theorem exists_load_eq_ok : (∃ gateway, (load registry config).result = .ok gateway) ↔
    config.validate = .ok () ∧
      ∀ pipeline ∈ config.pipelines, ∀ p ∈ pipeline.processors, p.Accepted registry config := by
  simp only [← Pipeline.exists_makes]
  rw [← exists_forall₂]
  constructor
  · rintro ⟨gateway, hload⟩
    obtain ⟨hvalid, _, chains, hchains, _⟩ :=
      Table.build_eq_ok.mp (load_eq_ok.mp (Build.result_eq.mp hload)).1
    exact ⟨hvalid, chains, hchains⟩
  · rintro ⟨hvalid, chains, hchains⟩
    have htable := Table.build_eq_ok.mpr ⟨hvalid, rfl, chains, hchains, rfl⟩
    exact ⟨_, congrArg Build.result (load_of_build htable)⟩

/-- A gateway loads exactly when its configuration is valid and no processor of any pipeline is
refused; then every endpoint is a mount, in order, and every processor has had its constructor
called once, in order. Otherwise all violations are reported, or else the fault of the first
processor that has one. -/
theorem load_all_or_nothing (registry : Registry) (config : Config) :
    ((∃ gateway, (load registry config).result = .ok gateway) ↔
      config.validate = .ok () ∧
        ∀ pipeline ∈ config.pipelines, ∀ p ∈ pipeline.processors, p.Accepted registry config) ∧
    (∀ gateway, (load registry config).result = .ok gateway →
      (load registry config).constructions = Config.constructions config.pipelines ∧
        ∃ chains, List.Forall₂ (Pipeline.Makes registry config) config.pipelines chains ∧
          gateway.table = (chains.zip config.pipelines).flatMap fun (chain, pipeline) =>
            pipeline.endpoints.map fun endpoint => ⟨endpoint, chain⟩) ∧
    (∀ errors, config.validate = .error errors →
      errors = config.violations ∧
        load registry config = ⟨[], .error (.invalid errors)⟩) ∧
    (config.validate = .ok () → ∀ e, (load registry config).result = .error e ↔
      ∃ before pipeline after done p rest called,
        config.pipelines = before ++ pipeline :: after ∧
        pipeline.processors = done ++ p :: rest ∧
        (∀ earlier ∈ before, ∀ p ∈ earlier.processors, p.Accepted registry config) ∧
        (∀ earlier ∈ done, earlier.Accepted registry config) ∧
        p.Fails registry config pipeline.name done.length called e ∧
        (load registry config).constructions = Config.constructions before ++
          (Pipeline.constructions pipeline.name done ++ called)) := by
  refine ⟨exists_load_eq_ok, fun gateway hload => ?_, fun errors herrors => ?_,
    fun hvalid e => ?_⟩
  · obtain ⟨_, hcalls, chains, hchains, htable⟩ :=
      Table.build_eq_ok.mp (load_eq_ok.mp (Build.result_eq.mp hload)).1
    exact ⟨hcalls, chains, hchains, htable.symm⟩
  · exact ⟨(Config.validate_eq_error.mp herrors).1.symm,
      load_eq_error.mpr (Table.build_of_violations herrors)⟩
  · rw [Build.result_eq, load_eq_error, Table.build_eq_error hvalid]

end Gateway
end ApiGateway
