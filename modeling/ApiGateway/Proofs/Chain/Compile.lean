import ApiGateway.Proofs.Chain.Build

/-! What a processor and a pipeline compile to, and for which reason they are refused. -/

namespace ApiGateway

theorem exists_forall₂ {α β : Type} {makes : α → β → Prop} {items : List α} :
    (∃ values, List.Forall₂ makes items values) ↔ ∀ item ∈ items, ∃ value, makes item value := by
  induction items with
  | nil => exact ⟨fun _ => List.forall_mem_nil _, fun _ => ⟨[], .nil⟩⟩
  | cons item rest ih =>
    rw [List.forall_mem_cons, ← ih]
    constructor
    · rintro ⟨_, hvalue | ⟨hvalue, hvalues⟩⟩
      exact ⟨⟨_, hvalue⟩, _, hvalues⟩
    · rintro ⟨⟨value, hvalue⟩, values, hvalues⟩
      exact ⟨value :: values, .cons hvalue hvalues⟩

namespace Processor

def HasCondition (p : Processor) (condition : Condition) : Prop :=
  p.condition = none ∧ condition = .always ∨
    ∃ raw, p.condition = some raw ∧ Condition.compile raw = .ok condition

structure Makes (registry : Registry) (config : Config) (p : Processor) (step : Step) : Prop where
  action : step.action = p.action
  condition : p.HasCondition step.condition
  handler : ∃ constructor, registry.lookup p.action = some constructor ∧
    constructor p.params config = .ok step.handler

def Accepted (registry : Registry) (config : Config) (p : Processor) : Prop :=
  (p.condition = none ∨ ∃ raw condition, p.condition = some raw ∧
    Condition.compile raw = .ok condition) ∧
  ∃ constructor handler, registry.lookup p.action = some constructor ∧
    constructor p.params config = .ok handler

def construction (pipeline : String) (index : Nat) (p : Processor) : Construction :=
  ⟨pipeline, index, p.action, p.params⟩

inductive Fails (registry : Registry) (config : Config) (pipeline : String) (index : Nat)
    (p : Processor) : List Construction → ConfigurationError → Prop where
  | condition {raw e} (hraw : p.condition = some raw) (herror : Condition.compile raw = .error e) :
      Fails registry config pipeline index p [] (.condition pipeline index e)
  | action {condition} (hcondition : p.HasCondition condition)
      (hnone : registry.lookup p.action = none) :
      Fails registry config pipeline index p [] (.unknownAction pipeline p.action)
  | init {condition constructor cause} (hcondition : p.HasCondition condition)
      (hsome : registry.lookup p.action = some constructor)
      (hcause : constructor p.params config = .error cause) :
      Fails registry config pipeline index p [p.construction pipeline index]
        (.actionInit pipeline p.action cause)

variable {registry : Registry} {config : Config} {pipeline : String} {index : Nat} {p : Processor}
  {calls : List Construction} {e : ConfigurationError}

theorem compileCondition_eq_ok {condition : Condition} :
    p.compileCondition = .ok condition ↔ p.HasCondition condition := by
  unfold compileCondition HasCondition
  cases p.condition with
  | none => simp [eq_comm]
  | some raw => simp

theorem compileCondition_eq_error {error : CompileError} :
    p.compileCondition = .error error ↔
      ∃ raw, p.condition = some raw ∧ Condition.compile raw = .error error := by
  unfold compileCondition
  cases p.condition with
  | none => simp
  | some raw => simp

theorem exists_makes : (∃ step, p.Makes registry config step) ↔ p.Accepted registry config := by
  constructor
  · rintro ⟨step, _, hcondition, constructor, hsome, hhandler⟩
    refine ⟨?_, constructor, step.handler, hsome, hhandler⟩
    rcases hcondition with ⟨hnone, _⟩ | ⟨raw, hraw, hcompiled⟩
    · exact Or.inl hnone
    · exact Or.inr ⟨raw, _, hraw, hcompiled⟩
  · rintro ⟨hcondition, constructor, handler, hsome, hhandler⟩
    rcases hcondition with hnone | ⟨raw, condition, hraw, hcompiled⟩
    · exact ⟨⟨p.action, .always, handler⟩, rfl, Or.inl ⟨hnone, rfl⟩, constructor, hsome, hhandler⟩
    · exact ⟨⟨p.action, condition, handler⟩, rfl, Or.inr ⟨raw, hraw, hcompiled⟩, constructor,
        hsome, hhandler⟩

theorem compile_eq_ok (registry : Registry) (config : Config) (pipeline : String) (index : Nat)
    (p : Processor) (calls : List Construction) (step : Step) :
    p.compile registry config pipeline index = ⟨calls, .ok step⟩ ↔
      p.Makes registry config step ∧ calls = [p.construction pipeline index] := by
  constructor
  · intro h
    unfold Processor.compile at h
    split at h
    next => cases h
    next condition hcondition =>
      split at h
      next => cases h
      next constructor hsome =>
        obtain ⟨rfl, hresult⟩ := Build.mk.inj h
        split at hresult
        next => cases hresult
        next handler hhandler =>
          obtain rfl := Except.ok.inj hresult
          exact ⟨⟨rfl, compileCondition_eq_ok.mp hcondition, constructor, hsome, hhandler⟩, rfl⟩
  · obtain ⟨action, condition, handler⟩ := step
    rintro ⟨⟨rfl, hcondition, constructor, hsome, hhandler⟩, rfl⟩
    unfold Processor.compile
    simp only [compileCondition_eq_ok.mpr hcondition, hsome, hhandler, construction]

theorem compile_eq_error :
    p.compile registry config pipeline index = ⟨calls, .error e⟩ ↔
      p.Fails registry config pipeline index calls e := by
  constructor
  · -- the checks in the order they are made: condition, action, constructor
    intro h
    unfold Processor.compile at h
    split at h
    next error herror =>
      cases h
      obtain ⟨raw, hraw, herror⟩ := compileCondition_eq_error.mp herror
      exact .condition hraw herror
    next condition hcondition =>
      have hcondition := compileCondition_eq_ok.mp hcondition
      split at h
      next hnone =>
        cases h
        exact .action hcondition hnone
      next constructor hsome =>
        obtain ⟨rfl, hresult⟩ := Build.mk.inj h
        split at hresult
        next cause hcause =>
          obtain rfl := Except.error.inj hresult
          exact .init hcondition hsome hcause
        next => cases hresult
  · intro h
    unfold Processor.compile
    cases h with
    | condition hraw herror =>
      simp only [compileCondition_eq_error.mpr ⟨_, hraw, herror⟩, Build.refuse]
    | action hcondition hnone =>
      simp only [compileCondition_eq_ok.mpr hcondition, hnone, Build.refuse]
    | init hcondition hsome hcause =>
      simp only [compileCondition_eq_ok.mpr hcondition, hsome, hcause, construction]

end Processor

namespace Pipeline

structure Makes (registry : Registry) (config : Config) (pipeline : Pipeline) (chain : Chain) :
    Prop where
  name : chain.pipeline = pipeline.name
  steps : List.Forall₂ (Processor.Makes registry config) pipeline.processors chain.steps

def constructions (pipeline : String) (processors : List Processor) : List Construction :=
  processors.zipIdx.map fun (p, index) => p.construction pipeline index

variable {registry : Registry} {config : Config} {pipeline : Pipeline}
  {calls : List Construction} {e : ConfigurationError}

theorem constructions_eq (pipeline : String) (processors : List Processor) :
    (processors.zipIdx.flatMap fun entry => [entry.1.construction pipeline entry.2]) =
      constructions pipeline processors := List.flatMap_pure_eq_map _ _

theorem exists_makes : (∃ chain, pipeline.Makes registry config chain) ↔
    ∀ p ∈ pipeline.processors, p.Accepted registry config := by
  simp only [← Processor.exists_makes]
  rw [← exists_forall₂]
  constructor
  · rintro ⟨chain, _, hsteps⟩
    exact ⟨chain.steps, hsteps⟩
  · rintro ⟨steps, hsteps⟩
    exact ⟨⟨pipeline.name, steps⟩, rfl, hsteps⟩

theorem compile_eq_ok (registry : Registry) (config : Config) (pipeline : Pipeline)
    (calls : List Construction) (chain : Chain) :
    pipeline.compile registry config = ⟨calls, .ok chain⟩ ↔
      pipeline.Makes registry config chain ∧
        calls = constructions pipeline.name pipeline.processors := by
  rw [Pipeline.compile, Build.andThen_done_eq_ok]
  simp only [Build.each_eq_ok (Processor.compile_eq_ok registry config pipeline.name),
    constructions_eq]
  constructor
  · rintro ⟨steps, ⟨hsteps, rfl⟩, rfl⟩
    exact ⟨⟨rfl, hsteps⟩, rfl⟩
  · rintro ⟨⟨hname, hsteps⟩, rfl⟩
    exact ⟨chain.steps, ⟨hsteps, rfl⟩, by rw [← hname]⟩

theorem result_compile_eq_ok {chain : Chain} :
    (pipeline.compile registry config).result = .ok chain ↔
      pipeline.Makes registry config chain := by
  constructor
  · intro h
    exact ((compile_eq_ok ..).mp (Build.result_eq.mp h)).1
  · intro h
    exact congrArg Build.result ((compile_eq_ok ..).mpr ⟨h, rfl⟩)

theorem compile_eq_error :
    pipeline.compile registry config = ⟨calls, .error e⟩ ↔
      ∃ before p after called, pipeline.processors = before ++ p :: after ∧
        (∀ earlier ∈ before, earlier.Accepted registry config) ∧
        p.Fails registry config pipeline.name before.length called e ∧
        calls = constructions pipeline.name before ++ called := by
  rw [Pipeline.compile, Build.andThen_done_eq_error,
    Build.each_eq_error (Processor.compile_eq_ok registry config pipeline.name)]
  simp only [constructions_eq, Processor.exists_makes, Processor.compile_eq_error, Nat.zero_add]

end Pipeline
end ApiGateway
