import ApiGateway.Mount.Dispatch

/-! Dispatch as a walk from mount to mount and, inside a mount, from step to step. Resumed at any
point of its walk, a dispatch is what was left of the whole one there. -/

namespace ApiGateway

inductive Waypoint where
  | mount (position : Nat) (r : Request) (time : Nat)
  | step (position index : Nat) (r : Request) (time : Nat)

def Request.recorded (r : Request) : Request :=
  { r with arrivalUri := r.arrivalUri.or (some r.uri) }

def Step.takes (step : Step) (r : Request) : Bool :=
  match step.condition.evaluate r.view with
  | .ok holds => holds
  | .error _ => false

namespace Table

/-- One move of the walk of a request that arrived with `uri`. -/
inductive Moves (table : Table) (uri : Uri) : Waypoint → Waypoint → Prop where
  | pass {position r time} {mount : Mount} (hmount : table[position]? = some mount)
      (hadmits : mount.endpoint.admits r = false) :
      Moves table uri (.mount position r time) (.mount (position + 1) r time)
  | enter {position r time rest} {mount : Mount} (hmount : table[position]? = some mount)
      (hadmits : mount.endpoint.admits r = true)
      (hrest : mount.endpoint.mountPath.strip? r.uri.path = some rest) :
      Moves table uri (.mount position r time)
        (.step position 0 (r.enter mount.endpoint.mountPath rest) time)
  | skip {position index r time step} {mount : Mount} (hmount : table[position]? = some mount)
      (hstep : mount.chain.steps[index]? = some step)
      (hfalse : step.condition.evaluate r.view = .ok false) :
      Moves table uri (.step position index r time) (.step position (index + 1) r time)
  | hand {position index r time step delay next} {mount : Mount}
      (hmount : table[position]? = some mount) (hstep : mount.chain.steps[index]? = some step)
      (htrue : step.condition.evaluate r.view = .ok true)
      (hpass : step.handler r = .settle delay (.ok (.pass next))) :
      Moves table uri (.step position index r time)
        (.step position (index + 1) next (time + delay))
  | leave {position r time} {mount : Mount} (hmount : table[position]? = some mount) :
      Moves table uri (.step position mount.chain.steps.length r time)
        (.mount (position + 1) { r with uri } time)

inductive Ends (table : Table) : Waypoint → Nat → Conclusion → Prop where
  | answered {position index r time step delay response} {mount : Mount}
      (hmount : table[position]? = some mount) (hstep : mount.chain.steps[index]? = some step)
      (htrue : step.condition.evaluate r.view = .ok true)
      (hanswer : step.handler r = .settle delay (.ok (.answer response))) :
      Ends table (.step position index r time) (time + delay)
        (.responded (.handled mount.chain.pipeline) response)
  | undecided {position index r time step e} {mount : Mount}
      (hmount : table[position]? = some mount) (hstep : mount.chain.steps[index]? = some step)
      (herror : step.condition.evaluate r.view = .error e) :
      Ends table (.step position index r time) time
        (.responded (.failed mount.chain.pipeline (.evaluation step.action e)) .internalError)
  | failed {position index r time step delay e} {mount : Mount}
      (hmount : table[position]? = some mount) (hstep : mount.chain.steps[index]? = some step)
      (htrue : step.condition.evaluate r.view = .ok true)
      (hfail : step.handler r = .settle delay (.error (.error e))) :
      Ends table (.step position index r time) (time + delay)
        (.responded (.failed mount.chain.pipeline (.handler step.action e)) .internalError)
  | panicked {position index r time step delay} {mount : Mount}
      (hmount : table[position]? = some mount) (hstep : mount.chain.steps[index]? = some step)
      (htrue : step.condition.evaluate r.view = .ok true)
      (hpanic : step.handler r = .settle delay (.error .panic)) :
      Ends table (.step position index r time) (time + delay) .panicked
  | stalled {position index r time step} {mount : Mount}
      (hmount : table[position]? = some mount) (hstep : mount.chain.steps[index]? = some step)
      (htrue : step.condition.evaluate r.view = .ok true)
      (hstall : step.handler r = .stall) :
      Ends table (.step position index r time) time .stalled
  | unmatched {r time} :
      Ends table (.mount table.length r time) time (.responded .unmatched .notFound)

inductive Reaches (table : Table) (r : Request) : Waypoint → Prop where
  | start : Reaches table r (.mount 0 r.recorded 0)
  | move {w next : Waypoint} (hw : Reaches table r w) (hmove : table.Moves r.uri w next) :
      Reaches table r next

def visitsAt (table : Table) : Waypoint → List (Nat × Visit)
  | .mount _ _ _ => []
  | .step position index r time =>
    match table[position]?.bind fun mount => mount.chain.steps[index]? with
    | some step => [(position, ⟨index, step.action, r, time, step.takes r⟩)]
    | none => []

end Table

def Run.conclude (deadline : Option Nat) (uri : Uri) (position : Nat) (pipeline : String)
    (rest : Table) (run : Run) : Dispatch :=
  match run.ending with
  | .handled response => .ofRun position run (.responded (.handled pipeline) response)
  | .failed e => .ofRun position run (.responded (.failed pipeline e) .internalError)
  | .panicked => .ofRun position run .panicked
  | .stalled => .ofRun position run .stalled
  | .overdue => .ofRun position run .overdue
  | .unhandled left =>
    (rest.dispatchFrom deadline (position + 1) { left with uri } run.time).after position run

def Dispatch.preceded (seen : List (Nat × Visit)) (d : Dispatch) : Dispatch :=
  { d with visits := seen ++ d.visits }

theorem Endpoint.exists_strip_of_admits {e : Endpoint} {r : Request} (h : e.admits r = true) :
    ∃ rest, e.mountPath.strip? r.uri.path = some rest :=
  Option.isSome_iff_exists.mp (Bool.and_eq_true_iff.mp h).1

namespace Table

/-- The dispatch of a request that arrived with `uri`, from a point of its walk on. -/
def resume (table : Table) (uri : Uri) : Waypoint → Dispatch
  | .mount position r time => dispatchFrom none position (table.drop position) r time
  | .step position index r time =>
    match table[position]? with
    | some mount =>
      (runSteps none index (mount.chain.steps.drop index) r time).conclude none uri position
        mount.chain.pipeline (table.drop (position + 1))
    | none => ⟨[], time, .responded .unmatched .notFound⟩

variable {table : Table} {uri : Uri} {r : Request} {w next : Waypoint}

theorem dispatchFrom_cons_of_admits {mount : Mount} {rest : Table} {relative : String}
    (deadline : Option Nat) (position time : Nat) (hadmits : mount.endpoint.admits r = true)
    (hrest : mount.endpoint.mountPath.strip? r.uri.path = some relative) :
    dispatchFrom deadline position (mount :: rest) r time =
      (mount.chain.run deadline (r.enter mount.endpoint.mountPath relative) time).conclude
        deadline r.uri position mount.chain.pipeline rest := by
  simp only [dispatchFrom, if_pos hadmits, hrest]
  rfl

theorem dispatchFrom_cons_of_not_admits {mount : Mount} {rest : Table}
    (deadline : Option Nat) (position time : Nat) (hadmits : mount.endpoint.admits r = false) :
    dispatchFrom deadline position (mount :: rest) r time =
      dispatchFrom deadline (position + 1) rest r time := by
  simp only [dispatchFrom, hadmits, Bool.false_eq_true, if_false]

theorem conclude_after (deadline : Option Nat) (position : Nat) (pipeline : String) (visit : Visit)
    (run : Run) :
    (run.after visit).conclude deadline uri position pipeline table =
      (run.conclude deadline uri position pipeline table).preceded [(position, visit)] := by
  -- how a run ended decides what it comes to, and a visit before it changes no ending
  obtain ⟨visits, time, ending⟩ := run
  cases ending <;> rfl

theorem visitsAt_step {position index time : Nat} {mount : Mount} {step : Step}
    (hmount : table[position]? = some mount) (hstep : mount.chain.steps[index]? = some step) :
    table.visitsAt (.step position index r time) =
      [(position, ⟨index, step.action, r, time, step.takes r⟩)] := by
  simp only [visitsAt, hmount, Option.bind_some, hstep]

theorem resume_step {position : Nat} {mount : Mount} (hmount : table[position]? = some mount)
    (index : Nat) (r : Request) (time : Nat) :
    table.resume uri (.step position index r time) =
      (runSteps none index (mount.chain.steps.drop index) r time).conclude none uri position
        mount.chain.pipeline (table.drop (position + 1)) := by
  simp only [resume, hmount]

theorem drop_of_getElem? {α : Type} {items : List α} {index : Nat} {item : α}
    (h : items[index]? = some item) : items.drop index = item :: items.drop (index + 1) := by
  obtain ⟨hlt, rfl⟩ := List.getElem?_eq_some_iff.mp h
  exact List.drop_eq_getElem_cons hlt

theorem resume_of_moves (huri : ∀ {position r time}, w = .mount position r time → r.uri = uri)
    (hmove : table.Moves uri w next) :
    table.resume uri w = (table.resume uri next).preceded (table.visitsAt w) := by
  cases hmove with
  | pass hmount hadmits =>
    simp only [resume, drop_of_getElem? hmount, dispatchFrom_cons_of_not_admits _ _ _ hadmits]
    rfl
  | enter hmount hadmits hrest =>
    rw [resume_step hmount, List.drop_zero, ← huri rfl]
    simp only [resume, drop_of_getElem? hmount, dispatchFrom_cons_of_admits _ _ _ hadmits hrest]
    rfl
  | skip hmount hstep hfalse =>
    rw [resume_step hmount, resume_step hmount, visitsAt_step hmount hstep, ← conclude_after,
      drop_of_getElem? hstep]
    simp only [runSteps, hfalse, Step.takes]
  | hand hmount hstep htrue hpass =>
    rw [resume_step hmount, resume_step hmount, visitsAt_step hmount hstep, ← conclude_after,
      drop_of_getElem? hstep]
    simp only [runSteps, htrue, hpass, isDue, Step.takes, Bool.false_eq_true, if_false]
  | leave hmount =>
    -- no step is left, so the run is the bare `unhandled` and the mounts after it take over
    rw [resume_step hmount, List.drop_length]
    simp only [runSteps, Run.conclude, Dispatch.after, Dispatch.preceded, resume, visitsAt, hmount,
      Option.bind_some, List.getElem?_eq_none (Nat.le_refl _), List.map_nil]

theorem resume_of_ends {time : Nat} {conclusion : Conclusion}
    (hends : table.Ends w time conclusion) :
    table.resume uri w = ⟨table.visitsAt w, time, conclusion⟩ := by
  cases hends with
  | unmatched => simp only [resume, List.drop_length, dispatchFrom, visitsAt]
  | undecided hmount hstep herror =>
    rw [resume_step hmount, visitsAt_step hmount hstep, drop_of_getElem? hstep]
    simp only [runSteps, herror, Run.conclude, Dispatch.ofRun, Step.takes, List.map_cons,
      List.map_nil]
  | stalled hmount hstep htrue hstall =>
    rw [resume_step hmount, visitsAt_step hmount hstep, drop_of_getElem? hstep]
    simp only [runSteps, htrue, hstall, Option.isSome_none, Bool.false_eq_true, if_false,
      Run.conclude, Dispatch.ofRun, Step.takes, List.map_cons, List.map_nil]
  | answered hmount hstep htrue hsettle | failed hmount hstep htrue hsettle
  | panicked hmount hstep htrue hsettle =>
    rw [resume_step hmount, visitsAt_step hmount hstep, drop_of_getElem? hstep]
    simp only [runSteps, htrue, hsettle, isDue, Bool.false_eq_true, if_false, Run.conclude,
      Dispatch.ofRun, Step.takes, List.map_cons, List.map_nil]

def Within (table : Table) (uri : Uri) : Waypoint → Prop
  | .mount position r _ => position ≤ table.length ∧ r.uri = uri
  | .step position index _ _ =>
    ∃ mount : Mount, table[position]? = some mount ∧ index ≤ mount.chain.steps.length

theorem Moves.within (hmove : table.Moves uri w next) (hw : table.Within uri w) :
    table.Within uri next := by
  cases hmove with
  | pass hmount => exact ⟨(List.getElem?_eq_some_iff.mp hmount).1, hw.2⟩
  | enter hmount => exact ⟨_, hmount, Nat.zero_le _⟩
  | skip hmount hstep | hand hmount hstep =>
    exact ⟨_, hmount, (List.getElem?_eq_some_iff.mp hstep).1⟩
  | leave hmount => exact ⟨(List.getElem?_eq_some_iff.mp hmount).1, rfl⟩

theorem Reaches.within (hw : table.Reaches r w) : table.Within r.uri w := by
  induction hw with
  | start => exact ⟨Nat.zero_le _, rfl⟩
  | move _ hmove ih => exact hmove.within ih

theorem Reaches.uri_eq {position time : Nat} {q : Request}
    (hw : table.Reaches r (.mount position q time)) : q.uri = r.uri := hw.within.2

theorem moves_or_ends (hw : table.Within uri w) :
    (∃ next, table.Moves uri w next) ∨ ∃ time conclusion, table.Ends w time conclusion := by
  cases w with
  | mount position r time =>
    rcases Nat.lt_or_eq_of_le hw.1 with hlt | rfl
    · -- what admits a request also strips its path, so an admitted one does enter
      have hmount := List.getElem?_eq_getElem hlt
      cases hadmits : table[position].endpoint.admits r with
      | false => exact Or.inl ⟨_, .pass hmount hadmits⟩
      | true =>
        obtain ⟨rest, hrest⟩ := Endpoint.exists_strip_of_admits hadmits
        exact Or.inl ⟨_, .enter hmount hadmits hrest⟩
    · exact Or.inr ⟨_, _, .unmatched⟩
  | step position index r time =>
    obtain ⟨mount, hmount, hle⟩ := hw
    rcases Nat.lt_or_eq_of_le hle with hlt | rfl
    · have hstep := List.getElem?_eq_getElem hlt
      cases hcondition : mount.chain.steps[index].condition.evaluate r.view with
      | error e => exact Or.inr ⟨_, _, .undecided hmount hstep hcondition⟩
      | ok holds =>
        cases holds with
        | false => exact Or.inl ⟨_, .skip hmount hstep hcondition⟩
        | true =>
          cases hhandler : mount.chain.steps[index].handler r with
          | stall => exact Or.inr ⟨_, _, .stalled hmount hstep hcondition hhandler⟩
          | settle delay result =>
            match result with
            | .ok (.answer response) =>
              exact Or.inr ⟨_, _, .answered hmount hstep hcondition hhandler⟩
            | .ok (.pass next) => exact Or.inl ⟨_, .hand hmount hstep hcondition hhandler⟩
            | .error (.error e) => exact Or.inr ⟨_, _, .failed hmount hstep hcondition hhandler⟩
            | .error .panic => exact Or.inr ⟨_, _, .panicked hmount hstep hcondition hhandler⟩
    · exact Or.inl ⟨_, .leave hmount⟩

def points : List Mount → Nat
  | [] => 0
  | mount :: rest => mount.chain.steps.length + 2 + points rest

def ahead (table : Table) : Waypoint → Nat
  | .mount position _ _ => points (table.drop position)
  | .step position index _ _ => points (table.drop position) - (index + 1)

theorem ahead_lt_of_moves (hmove : table.Moves uri w next) : table.ahead next < table.ahead w := by
  cases hmove with
  | pass hmount | enter hmount =>
    simp only [ahead, drop_of_getElem? hmount, points]
    omega
  | skip hmount hstep | hand hmount hstep =>
    have hlt := (List.getElem?_eq_some_iff.mp hstep).1
    simp only [ahead, drop_of_getElem? hmount, points]
    omega
  | leave hmount =>
    simp only [ahead, drop_of_getElem? hmount, points]
    omega

theorem Reaches.resume_induction {motive : Waypoint → Dispatch → Prop}
    (ends : ∀ {w time conclusion}, table.Reaches r w → table.Ends w time conclusion →
      motive w ⟨table.visitsAt w, time, conclusion⟩)
    (moves : ∀ {w next d}, table.Reaches r w → table.Moves r.uri w next → motive next d →
      motive w (d.preceded (table.visitsAt w)))
    (hw : table.Reaches r w) : motive w (table.resume r.uri w) := by
  -- a walk cannot go on for ever, since `ahead` falls with every move
  induction hn : table.ahead w using Nat.strongRecOn generalizing w with
  | ind n ih =>
    rcases moves_or_ends hw.within with ⟨next, hmove⟩ | ⟨time, conclusion, hends⟩
    · rw [resume_of_moves (fun h => (h ▸ hw).uri_eq) hmove]
      exact moves hw hmove (ih _ (hn ▸ ahead_lt_of_moves hmove) (hw.move hmove) rfl)
    · rw [resume_of_ends hends]
      exact ends hw hends

end Table
end ApiGateway
