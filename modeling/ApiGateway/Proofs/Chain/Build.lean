import ApiGateway.Chain.Compile
import Mathlib.Data.List.Forall2

/-! Builds, by their constructor calls and results at once: how a sequence of builds comes to its
values, and where it is refused. -/

namespace ApiGateway.Build

variable {α β : Type} {calls : List Construction} {e : ConfigurationError}

theorem result_eq {build : Build α} {result : Except ConfigurationError α} :
    build.result = result ↔ build = ⟨build.constructions, result⟩ :=
  ⟨fun h => h ▸ rfl, fun h => congrArg Build.result h⟩

theorem andThen_eq_ok {build : Build α} {next : α → Build β} {value : β} :
    build.andThen next = ⟨calls, .ok value⟩ ↔
      ∃ before a after, build = ⟨before, .ok a⟩ ∧ next a = ⟨after, .ok value⟩ ∧
        calls = before ++ after := by
  obtain ⟨constructions, result⟩ := build
  constructor
  · intro h
    cases result with
    | error => cases h
    | ok a =>
      obtain ⟨rfl, hresult⟩ := Build.mk.inj h
      exact ⟨_, a, _, rfl, congrArg (Build.mk _) hresult, rfl⟩
  · rintro ⟨before, a, after, ⟨⟩, hnext, rfl⟩
    simp only [andThen, hnext]

theorem andThen_eq_error {build : Build α} {next : α → Build β} :
    build.andThen next = ⟨calls, .error e⟩ ↔
      build = ⟨calls, .error e⟩ ∨
        ∃ before a after, build = ⟨before, .ok a⟩ ∧ next a = ⟨after, .error e⟩ ∧
          calls = before ++ after := by
  obtain ⟨constructions, result⟩ := build
  constructor
  · intro h
    cases result with
    | error => cases h; exact Or.inl rfl
    | ok a =>
      obtain ⟨rfl, hresult⟩ := Build.mk.inj h
      exact Or.inr ⟨_, a, _, rfl, congrArg (Build.mk _) hresult, rfl⟩
  · rintro (⟨⟨⟩⟩ | ⟨before, a, after, ⟨⟩, hnext, rfl⟩)
    · rfl
    · simp only [andThen, hnext]

theorem andThen_done (build : Build α) (f : α → β) :
    build.andThen (fun a => done (f a)) = ⟨build.constructions, build.result.map f⟩ := by
  obtain ⟨constructions, result⟩ := build
  cases result with
  | error => rfl
  | ok => simp only [andThen, done, List.append_nil, Except.map]

theorem andThen_done_eq_ok {build : Build α} {f : α → β} {value : β} :
    build.andThen (fun a => done (f a)) = ⟨calls, .ok value⟩ ↔
      ∃ a, build = ⟨calls, .ok a⟩ ∧ f a = value := by
  rw [andThen_done]
  obtain ⟨constructions, result⟩ := build
  cases result <;> simp [Except.map]

theorem andThen_done_eq_error {build : Build α} {f : α → β} :
    build.andThen (fun a => done (f a)) = ⟨calls, .error e⟩ ↔ build = ⟨calls, .error e⟩ := by
  rw [andThen_done]
  obtain ⟨constructions, result⟩ := build
  cases result <;> simp [Except.map]

/-! ## Sequences -/

variable {builder : Nat → α → Build β} {makes : α → β → Prop}
  {declared : Nat → α → List Construction}

theorem each_eq_ok
    (hok : ∀ index item calls value, builder index item = ⟨calls, .ok value⟩ ↔
      makes item value ∧ calls = declared index item)
    {index : Nat} {items : List α} {values : List β} :
    each builder index items = ⟨calls, .ok values⟩ ↔
      List.Forall₂ makes items values ∧
        calls = (items.zipIdx index).flatMap fun entry => declared entry.2 entry.1 := by
  induction items generalizing index calls values with
  | nil =>
    simp only [each, done, List.forall₂_nil_left_iff, List.zipIdx_nil, List.flatMap_nil]
    constructor
    · rintro ⟨⟩
      exact ⟨rfl, rfl⟩
    · rintro ⟨rfl, rfl⟩
      rfl
  | cons item rest ih =>
    rw [each, andThen_eq_ok]
    simp only [andThen_done_eq_ok, hok, ih, List.zipIdx_cons, List.flatMap_cons,
      List.forall₂_cons_left_iff]
    constructor
    · rintro ⟨_, value, _, ⟨hvalue, rfl⟩, ⟨values, ⟨hvalues, rfl⟩, rfl⟩, rfl⟩
      exact ⟨⟨value, values, hvalue, hvalues, rfl⟩, rfl⟩
    · rintro ⟨⟨value, values, hvalue, hvalues, rfl⟩, rfl⟩
      exact ⟨_, value, _, ⟨hvalue, rfl⟩, ⟨values, ⟨hvalues, rfl⟩, rfl⟩, rfl⟩

theorem each_eq_error
    (hok : ∀ index item calls value, builder index item = ⟨calls, .ok value⟩ ↔
      makes item value ∧ calls = declared index item)
    {index : Nat} {items : List α} :
    each builder index items = ⟨calls, .error e⟩ ↔
      ∃ before item after called, items = before ++ item :: after ∧
        (∀ earlier ∈ before, ∃ value, makes earlier value) ∧
        builder (index + before.length) item = ⟨called, .error e⟩ ∧
        calls = ((before.zipIdx index).flatMap fun entry => declared entry.2 entry.1) ++ called := by
  induction items generalizing index calls with
  | nil =>
    constructor
    · rintro ⟨⟩
    · rintro ⟨before, item, after, called, hitems, _⟩
      exact absurd hitems (by simp)
  | cons item rest ih =>
    rw [each, andThen_eq_error]
    simp only [andThen_done_eq_error, hok, ih]
    constructor
    · -- the first refused item is this one, or that of the rest with this one before it
      rintro (hfirst | ⟨_, value, _, ⟨hvalue, rfl⟩,
        ⟨before, later, after, called, rfl, hbefore, hlater, rfl⟩, rfl⟩)
      · exact ⟨[], item, rest, calls, rfl, List.forall_mem_nil _, hfirst, rfl⟩
      · refine ⟨item :: before, later, after, called, rfl,
          List.forall_mem_cons.mpr ⟨⟨value, hvalue⟩, hbefore⟩, ?_, ?_⟩
        · rw [← hlater, List.length_cons, Nat.add_right_comm, Nat.add_assoc]
        · rw [List.zipIdx_cons, List.flatMap_cons, List.append_assoc]
    · rintro ⟨before, later, after, called, hitems, hbefore, hlater, rfl⟩
      cases before with
      | nil =>
        obtain ⟨rfl, rfl⟩ := List.cons.inj hitems
        exact Or.inl hlater
      | cons first before =>
        obtain ⟨rfl, rfl⟩ := List.cons.inj hitems
        obtain ⟨⟨value, hvalue⟩, hbefore⟩ := List.forall_mem_cons.mp hbefore
        refine Or.inr ⟨_, value, _, ⟨hvalue, rfl⟩,
          ⟨before, later, after, called, rfl, hbefore, ?_, rfl⟩, ?_⟩
        · rw [← hlater, List.length_cons, Nat.add_right_comm, Nat.add_assoc]
        · rw [List.zipIdx_cons, List.flatMap_cons, List.append_assoc]

end ApiGateway.Build
