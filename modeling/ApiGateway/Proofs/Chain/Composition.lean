import ApiGateway.Proofs.Chain.Run
import ApiGateway.Proofs.Mount.Dispatch

/-! Chains in sequence. A chain of some steps and then others runs the first steps and, if they hand
a request back, the others on that request. Split after its first step, a chain is read off one turn
at a time: every step reached hands the request on, or it is the last one reached and ends the
run. -/

namespace ApiGateway

def ChainError.action : ChainError → String
  | .evaluation action _ => action
  | .handler action _ => action

structure Visit.At (visit : Visit) (steps : List Step) (step : Step) (deadline : Option Nat)
    (turn : Turn) : Prop where
  getElem?_eq : steps[visit.step]? = some step
  action_eq : visit.action = step.action
  called_eq : visit.called = step.takes visit.request
  turn_eq : step.turn deadline visit.request visit.time = turn

variable {deadline : Option Nat} {time finish : Nat} {step : Step} {steps : List Step}
  {r : Request} {visit : Visit} {turn : Turn}

theorem runSteps_cons_shifted (deadline : Option Nat) (step : Step) (steps : List Step)
    (r : Request) (time : Nat) :
    runSteps deadline 0 (step :: steps) r time =
      (step.turn deadline r time).run (step.visit 0 r time) fun q time =>
        (runSteps deadline 0 steps q time).shifted 1 := by
  have hrest : runSteps deadline (0 + 1) steps = fun q time =>
      (runSteps deadline 0 steps q time).shifted 1 := by
    funext q time
    exact runSteps_shifted deadline 0 1 steps q time
  rw [runSteps_cons, hrest]

theorem Chain.run_append (deadline : Option Nat) (name : String) (s t : List Step) (r : Request)
    (time : Nat) :
    Chain.run deadline ⟨name, s ++ t⟩ r time =
      (Chain.run deadline ⟨name, s⟩ r time).andThen fun left time =>
        (Chain.run deadline ⟨name, t⟩ left time).shifted s.length := by
  have hrest : runSteps deadline (0 + s.length) t = fun left time =>
      (runSteps deadline 0 t left time).shifted s.length := by
    funext left time
    exact runSteps_shifted deadline 0 s.length t left time
  simp only [Chain.run]
  rw [runSteps_append, hrest]

theorem Run.calls_shifted (count : Nat) (run : Run) :
    (run.shifted count).calls = run.calls.map (Visit.shifted count) := by
  simp only [calls, shifted, List.filter_map]
  rfl

/-! ## Steps reached -/

theorem step_visits (deadline : Option Nat) (steps : List Step) (r : Request) (time : Nat) :
    (runSteps deadline 0 steps r time).visits.map Visit.step =
      List.range (runSteps deadline 0 steps r time).visits.length := by
  induction steps generalizing r time with
  | nil => rfl
  | cons step steps ih =>
    rw [runSteps_cons_shifted]
    cases step.turn deadline r time with
    | stop => rfl
    | on next finish =>
      have hshift : ∀ visits : List Visit, (visits.map (Visit.shifted 1)).map Visit.step =
          (visits.map Visit.step).map Nat.succ := by
        intro visits
        rw [List.map_map, List.map_map]
        rfl
      simp only [Turn.run, Run.after, Run.shifted, List.map_cons, hshift, ih, List.length_cons,
        List.length_map, List.range_succ_eq_map]
      rfl

theorem pairwise_step_calls (deadline : Option Nat) (steps : List Step) (r : Request) (time : Nat) :
    ((runSteps deadline 0 steps r time).calls.map Visit.step).Pairwise (· < ·) := by
  have hsublist : ((runSteps deadline 0 steps r time).calls.map Visit.step).Sublist
      ((runSteps deadline 0 steps r time).visits.map Visit.step) :=
    List.filter_sublist.map _
  rw [step_visits] at hsublist
  exact List.pairwise_lt_range.sublist hsublist

theorem Visit.At.shifted (h : visit.At steps step deadline turn) (first : Step) :
    (visit.shifted 1).At (first :: steps) step deadline turn :=
  ⟨h.getElem?_eq, h.action_eq, h.called_eq, h.turn_eq⟩

theorem Step.at_visit (step : Step) (steps : List Step) (deadline : Option Nat) (r : Request)
    (time : Nat) :
    (step.visit 0 r time).At (step :: steps) step deadline (step.turn deadline r time) :=
  ⟨rfl, rfl, rfl, rfl⟩

theorem Run.getLast?_after_shifted {run : Run} {last : Visit} (visit : Visit) (count : Nat)
    (hlast : run.visits.getLast? = some last) :
    ((run.shifted count).after visit).visits.getLast? = some (last.shifted count) := by
  simp only [after, shifted, List.getLast?_cons, List.getLast?_map, hlast, Option.map_some,
    Option.getD_some]

theorem at_of_mem_visits (hvisit : visit ∈ (runSteps deadline 0 steps r time).visits) :
    ∃ step, (∃ next finish, visit.At steps step deadline (.on next finish)) ∨
      (runSteps deadline 0 steps r time).visits.getLast? = some visit ∧
        visit.At steps step deadline (.stop (runSteps deadline 0 steps r time).time
          (runSteps deadline 0 steps r time).ending) := by
  induction steps generalizing r time visit with
  | nil => cases hvisit
  | cons first steps ih =>
    have hfirst := first.at_visit steps deadline r time
    rw [runSteps_cons_shifted] at hvisit ⊢
    cases hturn : first.turn deadline r time with
    | stop finish ending =>
      rw [hturn] at hvisit hfirst
      obtain rfl := List.mem_singleton.mp hvisit
      exact ⟨first, Or.inr ⟨rfl, hfirst⟩⟩
    | on next finish =>
      rw [hturn] at hvisit hfirst
      rcases List.mem_cons.mp hvisit with rfl | hvisit
      · exact ⟨first, Or.inl ⟨next, finish, hfirst⟩⟩
      · obtain ⟨later, hlater, rfl⟩ := List.mem_map.mp hvisit
        obtain ⟨step, ⟨next, finish, hat⟩ | ⟨hlast, hat⟩⟩ := ih hlater
        · exact ⟨step, Or.inl ⟨next, finish, hat.shifted first⟩⟩
        · exact ⟨step, Or.inr ⟨Run.getLast?_after_shifted _ 1 hlast, hat.shifted first⟩⟩

theorem exists_last (hended : ∀ left, (runSteps deadline 0 steps r time).ending ≠ .unhandled left) :
    ∃ last step, (runSteps deadline 0 steps r time).visits.getLast? = some last ∧
      last.At steps step deadline (.stop (runSteps deadline 0 steps r time).time
        (runSteps deadline 0 steps r time).ending) := by
  induction steps generalizing r time with
  | nil => exact absurd rfl (hended r)
  | cons first steps ih =>
    have hfirst := first.at_visit steps deadline r time
    rw [runSteps_cons_shifted] at hended ⊢
    cases hturn : first.turn deadline r time with
    | stop finish ending =>
      rw [hturn] at hfirst
      exact ⟨_, first, rfl, hfirst⟩
    | on next finish =>
      rw [hturn] at hended
      obtain ⟨last, step, hlast, hat⟩ := ih hended
      exact ⟨last.shifted 1, step, Run.getLast?_after_shifted _ 1 hlast, hat.shifted first⟩

theorem request_of_first (hvisit : visit ∈ (runSteps deadline 0 steps r time).visits)
    (hfirst : visit.step = 0) : visit.request = r := by
  cases steps with
  | nil => cases hvisit
  | cons step steps =>
    rw [runSteps_cons_shifted] at hvisit
    cases hturn : step.turn deadline r time with
    | stop finish ending =>
      rw [hturn] at hvisit
      obtain rfl := List.mem_singleton.mp hvisit
      rfl
    | on next finish =>
      rw [hturn] at hvisit
      rcases List.mem_cons.mp hvisit with rfl | hvisit
      · rfl
      · obtain ⟨_, _, rfl⟩ := List.mem_map.mp hvisit
        cases hfirst

/-! ## How a run ends -/

inductive Step.Stops (step : Step) (r : Request) : Ending → Prop where
  | undecided {e} (herror : step.condition.evaluate r.view = .error e) :
      Stops step r (.failed (.evaluation step.action e))
  | answered {delay response} (htakes : step.takes r = true)
      (hanswer : step.handler r = .settle delay (.ok (.answer response))) :
      Stops step r (.handled response)
  | failed {delay e} (htakes : step.takes r = true)
      (hfail : step.handler r = .settle delay (.error (.error e))) :
      Stops step r (.failed (.handler step.action e))
  | panicked {delay} (htakes : step.takes r = true)
      (hpanic : step.handler r = .settle delay (.error .panic)) : Stops step r .panicked
  | stalled (htakes : step.takes r = true) (hstall : step.handler r = .stall) :
      Stops step r .stalled
  | overdue (htakes : step.takes r = true) : Stops step r .overdue

theorem Step.stops_of_turn {ending : Ending}
    (hturn : step.turn deadline r time = .stop finish ending) : step.Stops r ending := by
  unfold turn at hturn
  split at hturn
  next herror =>
    cases hturn
    exact .undecided herror
  next => cases hturn
  next htrue =>
    have htakes := Table.takes_iff.mpr htrue
    split at hturn
    next hstall =>
      obtain ⟨-, rfl⟩ := Turn.stop.inj hturn
      split
      · exact .overdue htakes
      · exact .stalled htakes hstall
    next delay result hsettle =>
      split at hturn
      · cases hturn
        exact .overdue htakes
      · match result with
        | .ok (.answer response) =>
          cases hturn
          exact .answered htakes hsettle
        | .ok (.pass next) => cases hturn
        | .error (.error e) =>
          cases hturn
          exact .failed htakes hsettle
        | .error .panic =>
          cases hturn
          exact .panicked htakes hsettle

theorem Step.Stops.action_eq {e : ChainError} (h : step.Stops r (.failed e)) :
    e.action = step.action := by
  cases h <;> rfl

theorem Step.turn_ne_on_of_answer {delay : Nat} {response : Response} {next : Request}
    (htakes : step.takes r = true)
    (hanswer : step.handler r = .settle delay (.ok (.answer response))) :
    step.turn deadline r time ≠ .on next finish := by
  intro hturn
  simp only [turn, Table.takes_iff.mp htakes, hanswer, settled] at hturn
  split at hturn <;> cases hturn

/-- A chain of some steps and then others is the chain of the first and, exactly if that hands a
request back, the chain of the others on that request: with the same end, the same visits and the
same calls, in order and on the same requests. Handlers are called at most once and in declared
order, one that answers is the last step reached, and a failure names the action of the step at
which it came about. -/
theorem Chain.run_composes (deadline : Option Nat) (name : String) (s t : List Step) (r : Request)
    (time : Nat) :
    let first := Chain.run deadline ⟨name, s⟩ r time
    let whole := Chain.run deadline ⟨name, s ++ t⟩ r time
    (∀ left, first.ending = .unhandled left →
      let second := Chain.run deadline ⟨name, t⟩ left first.time
      whole.ending = second.ending ∧ whole.time = second.time ∧
        whole.visits = first.visits ++ second.visits.map (Visit.shifted s.length) ∧
        whole.calls = first.calls ++ second.calls.map (Visit.shifted s.length)) ∧
    ((∀ left, first.ending ≠ .unhandled left) → whole = first) ∧
    (whole.calls.map Visit.step).Pairwise (· < ·) ∧
    (∀ call ∈ whole.calls, ∃ step, (s ++ t)[call.step]? = some step ∧ call.action = step.action ∧
      ∀ delay response, step.handler call.request = .settle delay (.ok (.answer response)) →
        whole.visits.getLast? = some call) ∧
    ((∃ left, whole.ending = .unhandled left) ∨
      ∃ last step, whole.visits.getLast? = some last ∧ (s ++ t)[last.step]? = some step ∧
        step.Stops last.request whole.ending ∧
        ∀ e, whole.ending = .failed e → e.action = step.action) := by
  intro first whole
  have hwhole : whole = first.andThen fun left time =>
      (Chain.run deadline ⟨name, t⟩ left time).shifted s.length :=
    Chain.run_append deadline name s t r time
  refine ⟨?_, ?_, pairwise_step_calls deadline (s ++ t) r time, ?_, ?_⟩
  · intro left hleft second
    rw [hwhole, Run.andThen, hleft]
    refine ⟨rfl, rfl, rfl, ?_⟩
    rw [Run.calls, List.filter_append]
    exact congrArg _ (Run.calls_shifted s.length second)
  · intro hended
    rw [hwhole]
    exact Run.andThen_of_ne _ hended
  · intro call hcall
    obtain ⟨hvisit, hcalled⟩ := List.mem_filter.mp hcall
    obtain ⟨step, ⟨next, finish, hat⟩ | ⟨hlast, hat⟩⟩ := at_of_mem_visits hvisit
    · refine ⟨step, hat.getElem?_eq, hat.action_eq, fun delay response hanswer => ?_⟩
      exact absurd hat.turn_eq (step.turn_ne_on_of_answer (hat.called_eq ▸ hcalled) hanswer)
    · exact ⟨step, hat.getElem?_eq, hat.action_eq, fun _ _ _ => hlast⟩
  · by_cases hended : ∃ left, whole.ending = .unhandled left
    · exact Or.inl hended
    · obtain ⟨last, step, hlast, hat⟩ := exists_last fun left hleft => hended ⟨left, hleft⟩
      have hstops := step.stops_of_turn hat.turn_eq
      refine Or.inr ⟨last, step, hlast, hat.getElem?_eq, hstops, fun e he => ?_⟩
      exact Step.Stops.action_eq (he ▸ hstops)

end ApiGateway
