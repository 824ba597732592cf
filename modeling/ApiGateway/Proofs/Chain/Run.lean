import ApiGateway.Proofs.Mount.Walk

/-! Runs one turn at a time. A step hands the request on or ends the run, so that a run is its first
turn and what the remaining steps make of it, and a run of two lists of steps is the run of the
first and, if it hands a request back, the run of the second on that. The numbers of the steps play
no part in it. -/

namespace ApiGateway

inductive Turn where
  | on (next : Request) (time : Nat)
  | stop (time : Nat) (ending : Ending)

namespace Step

def settled (step : Step) (time : Nat) : Except Fault Outcome → Turn
  | .ok (.answer response) => .stop time (.handled response)
  | .ok (.pass next) => .on next time
  | .error (.error e) => .stop time (.failed (.handler step.action e))
  | .error .panic => .stop time .panicked

def turn (step : Step) (deadline : Option Nat) (r : Request) (time : Nat) : Turn :=
  match step.condition.evaluate r.view with
  | .error e => .stop time (.failed (.evaluation step.action e))
  | .ok false => .on r time
  | .ok true =>
    match step.handler r with
    | .stall => .stop time (if deadline.isSome then .overdue else .stalled)
    | .settle delay result =>
      if isDue deadline (time + delay) then .stop (time + delay) .overdue
      else step.settled (time + delay) result

def visit (step : Step) (position : Nat) (r : Request) (time : Nat) : Visit :=
  ⟨position, step.action, r, time, step.takes r⟩

end Step

def Turn.run (visit : Visit) (rest : Request → Nat → Run) : Turn → Run
  | .on next time => (rest next time).after visit
  | .stop time ending => ⟨[visit], time, ending⟩

def Run.andThen (run : Run) (next : Request → Nat → Run) : Run :=
  match run.ending with
  | .unhandled left => { next left run.time with visits := run.visits ++ (next left run.time).visits }
  | _ => run

def Visit.shifted (count : Nat) (visit : Visit) : Visit := { visit with step := visit.step + count }

def Run.shifted (count : Nat) (run : Run) : Run :=
  { run with visits := run.visits.map (Visit.shifted count) }

variable {deadline : Option Nat} {position time : Nat} {step : Step} {steps : List Step}
  {r next : Request}

theorem runSteps_cons (deadline : Option Nat) (position : Nat) (step : Step) (steps : List Step)
    (r : Request) (time : Nat) :
    runSteps deadline position (step :: steps) r time =
      (step.turn deadline r time).run (step.visit position r time)
        (runSteps deadline (position + 1) steps) := by
  simp only [runSteps, Step.turn, Step.visit, Step.takes]
  cases hcondition : step.condition.evaluate r.view with
  | error e => rfl
  | ok holds =>
    cases holds with
    | false => rfl
    | true =>
      cases hhandler : step.handler r with
      | stall => rfl
      | settle delay result =>
        simp only
        split
        · rfl
        · cases result with
          | ok outcome => cases outcome <;> rfl
          | error fault => cases fault <;> rfl

theorem head?_visits_runSteps (deadline : Option Nat) (position : Nat) (step : Step)
    (steps : List Step) (r : Request) (time : Nat) :
    (runSteps deadline position (step :: steps) r time).visits.head? =
      some (step.visit position r time) := by
  rw [runSteps_cons]
  cases step.turn deadline r time <;> rfl

theorem Run.after_andThen (visit : Visit) (run : Run) (next : Request → Nat → Run) :
    (run.after visit).andThen next = (run.andThen next).after visit := by
  obtain ⟨visits, time, ending⟩ := run
  cases ending <;> rfl

theorem Run.andThen_of_ne {run : Run} (next : Request → Nat → Run)
    (hend : ∀ left, run.ending ≠ .unhandled left) : run.andThen next = run := by
  obtain ⟨visits, time, ending⟩ := run
  cases ending with
  | unhandled left => exact absurd rfl (hend left)
  | _ => rfl

theorem Turn.run_andThen (turn : Turn) (visit : Visit) (rest next : Request → Nat → Run)
    (hstop : ∀ time left, turn ≠ .stop time (.unhandled left)) :
    (turn.run visit rest).andThen next =
      turn.run visit fun q time => (rest q time).andThen next := by
  cases turn with
  | on => exact Run.after_andThen ..
  | stop time ending =>
    cases ending with
    | unhandled left => exact absurd rfl (hstop time left)
    | _ => rfl

theorem Step.settled_ne_unhandled (step : Step) (time finish : Nat) (left : Request)
    (result : Except Fault Outcome) :
    step.settled time result ≠ .stop finish (.unhandled left) := by
  intro h
  cases result with
  | ok outcome => cases outcome <;> cases h
  | error fault => cases fault <;> cases h

theorem Step.turn_ne_unhandled (step : Step) (deadline : Option Nat) (r : Request)
    (time finish : Nat) (left : Request) :
    step.turn deadline r time ≠ .stop finish (.unhandled left) := by
  unfold Step.turn
  split
  · nofun
  · nofun
  · split
    · split <;> nofun
    · split
      · nofun
      · exact step.settled_ne_unhandled _ _ _ _

theorem Turn.shifted_run (turn : Turn) (visit : Visit) (rest : Request → Nat → Run) (count : Nat) :
    (turn.run visit rest).shifted count =
      turn.run (visit.shifted count) fun q time => (rest q time).shifted count := by
  cases turn <;> rfl

theorem runSteps_shifted (deadline : Option Nat) (position count : Nat) (steps : List Step)
    (r : Request) (time : Nat) :
    runSteps deadline (position + count) steps r time =
      (runSteps deadline position steps r time).shifted count := by
  induction steps generalizing position r time with
  | nil => rfl
  | cons step steps ih =>
    have hrest : runSteps deadline (position + count + 1) steps = fun q time =>
        (runSteps deadline (position + 1) steps q time).shifted count := by
      funext q time
      rw [Nat.add_right_comm]
      exact ih _ _ _
    rw [runSteps_cons, runSteps_cons, Turn.shifted_run, hrest]
    rfl

theorem runSteps_append (deadline : Option Nat) (position : Nat) (steps more : List Step)
    (r : Request) (time : Nat) :
    runSteps deadline position (steps ++ more) r time =
      (runSteps deadline position steps r time).andThen
        (runSteps deadline (position + steps.length) more) := by
  induction steps generalizing position r time with
  | nil => simp only [List.nil_append, runSteps, Run.andThen, List.length_nil, Nat.add_zero]
  | cons step steps ih =>
    have hrest : runSteps deadline (position + 1) (steps ++ more) = fun q time =>
        (runSteps deadline (position + 1) steps q time).andThen
          (runSteps deadline (position + (steps.length + 1)) more) := by
      funext q time
      rw [ih, Nat.add_assoc, Nat.add_comm 1]
    rw [List.cons_append, runSteps_cons, runSteps_cons, hrest, List.length_cons,
      Turn.run_andThen _ _ _ _ (step.turn_ne_unhandled deadline r time)]

end ApiGateway
