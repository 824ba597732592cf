import ApiGateway.Gateway.Router
import ApiGateway.Proofs.Chain.Run

/-! A deadline takes away the end of a dispatch and changes nothing before it. Up to the deadline
the dispatch does what the same dispatch without one does; the visits that it loses are those that
would begin at the deadline or later. -/

namespace ApiGateway

def Turn.time : Turn → Nat
  | .on _ time => time
  | .stop time _ => time

namespace Dispatch

def Since (start : Nat) (d : Dispatch) : Prop :=
  (∀ visit ∈ d.visits, start ≤ visit.2.time) ∧ start ≤ d.time

/-- Whether a dispatch comes to its end before a limit; one that stalls never does. -/
def EndsBefore (limit : Nat) (d : Dispatch) : Prop := d.conclusion ≠ .stalled ∧ d.time < limit

/-- `bound` is what a deadline leaves of the dispatch `free`. -/
structure Cut (limit : Nat) (free bound : Dispatch) : Prop where
  begins : bound.visits <+: free.visits
  visits_eq : bound.visits = free.visits.filter (·.2.time < limit)
  ended : free.EndsBefore limit → bound = free
  overdue : ¬ free.EndsBefore limit → bound.conclusion = .overdue

end Dispatch

variable {deadline : Option Nat} {limit position time : Nat} {uri : Uri} {r : Request}
  {name : String} {rest : Table}

def Ending.conclusion (pipeline : String) : Ending → Conclusion
  | .handled response => .responded (.handled pipeline) response
  | .failed e => .responded (.failed pipeline e) .internalError
  | .panicked => .panicked
  | .stalled => .stalled
  | .overdue => .overdue
  | .unhandled _ => .responded .unmatched .notFound

theorem Ending.eq_stalled_of_conclusion {ending : Ending}
    (h : ending.conclusion name = .stalled) : ending = .stalled := by
  cases ending with
  | stalled => rfl
  | _ => cases h

theorem Step.conclude_of_stop {step : Step} {finish : Nat} {ending : Ending}
    (hturn : step.turn deadline r time = .stop finish ending) (visit : Visit)
    (bound : Option Nat) :
    (⟨[visit], finish, ending⟩ : Run).conclude bound uri position name rest =
      ⟨[(position, visit)], finish, ending.conclusion name⟩ := by
  cases ending with
  | unhandled left => exact absurd hturn (step.turn_ne_unhandled _ _ _ _ _)
  | _ => rfl

/-! ## Time only passes -/

theorem Step.time_settled (step : Step) (time : Nat) (result : Except Fault Outcome) :
    (step.settled time result).time = time := by
  cases result with
  | ok outcome => cases outcome <;> rfl
  | error fault => cases fault <;> rfl

theorem Step.le_time_turn (step : Step) (deadline : Option Nat) (r : Request) (time : Nat) :
    time ≤ (step.turn deadline r time).time := by
  unfold Step.turn
  split
  · exact Nat.le_refl _
  · exact Nat.le_refl _
  · split
    · exact Nat.le_refl _
    · split
      · exact Nat.le_add_right _ _
      · rw [Step.time_settled]
        exact Nat.le_add_right _ _

theorem Dispatch.Since.mono {start later : Nat} {d : Dispatch} (h : d.Since later)
    (hle : start ≤ later) : d.Since start :=
  ⟨fun visit hvisit => Nat.le_trans hle (h.1 visit hvisit), Nat.le_trans hle h.2⟩

theorem Dispatch.Since.preceded {start : Nat} {d : Dispatch} (h : d.Since start)
    {seen : List (Nat × Visit)} (hseen : ∀ visit ∈ seen, start ≤ visit.2.time) :
    (d.preceded seen).Since start := ⟨List.forall_mem_append.mpr ⟨hseen, h.1⟩, h.2⟩

theorem since_conclude_runSteps
    (hrest : ∀ q later, (rest.dispatchFrom deadline (position + 1) q later).Since later)
    (uri : Uri) (name : String) (index : Nat) (steps : List Step) (r : Request) (time : Nat) :
    ((runSteps deadline index steps r time).conclude deadline uri position name rest).Since
      time := by
  induction steps generalizing index r time with
  | nil => exact hrest { r with uri } time
  | cons step steps ih =>
    have hvisit : ∀ visit ∈ [(position, step.visit index r time)], time ≤ visit.2.time :=
      List.forall_mem_singleton.mpr (Nat.le_refl _)
    have htime := step.le_time_turn deadline r time
    rw [runSteps_cons]
    cases hturn : step.turn deadline r time with
    | on next later =>
      rw [hturn] at htime
      rw [Turn.run, Table.conclude_after]
      exact ((ih _ next later).mono htime).preceded hvisit
    | stop later ending =>
      rw [hturn] at htime
      rw [Turn.run, Step.conclude_of_stop hturn]
      exact ⟨hvisit, htime⟩

theorem Table.since_dispatchFrom (deadline : Option Nat) (position : Nat) (table : Table)
    (r : Request) (time : Nat) : (table.dispatchFrom deadline position r time).Since time := by
  induction table generalizing position r time with
  | nil => exact ⟨List.forall_mem_nil _, Nat.le_refl _⟩
  | cons mount rest ih =>
    cases hadmits : mount.endpoint.admits r with
    | false =>
      rw [dispatchFrom_cons_of_not_admits _ _ _ hadmits]
      exact ih _ _ _
    | true =>
      obtain ⟨relative, hrelative⟩ := Endpoint.exists_strip_of_admits hadmits
      rw [dispatchFrom_cons_of_admits _ _ _ hadmits hrelative]
      exact since_conclude_runSteps (ih _) _ _ _ _ _ _

/-! ## What a deadline leaves -/

namespace Dispatch

variable {free bound : Dispatch}

theorem filter_eq_self_of_before {seen : List (Nat × Visit)}
    (hseen : ∀ visit ∈ seen, visit.2.time < limit) : seen.filter (·.2.time < limit) = seen :=
  List.filter_eq_self.mpr fun visit hvisit => decide_eq_true (hseen visit hvisit)

theorem EndsBefore.cut (hends : free.EndsBefore limit)
    (hvisits : ∀ visit ∈ free.visits, visit.2.time < limit) : Cut limit free free where
  begins := List.prefix_refl _
  visits_eq := (filter_eq_self_of_before hvisits).symm
  ended _ := rfl
  overdue h := absurd hends h

theorem cut_of_not_endsBefore {seen later : List (Nat × Visit)}
    (hvisits : free.visits = seen ++ later) (hseen : ∀ visit ∈ seen, visit.2.time < limit)
    (hlater : ∀ visit ∈ later, limit ≤ visit.2.time)
    (hends : ¬ free.EndsBefore limit) (finish : Nat) :
    Cut limit free ⟨seen, finish, .overdue⟩ where
  begins := ⟨later, hvisits.symm⟩
  visits_eq := by
    have hnone : later.filter (·.2.time < limit) = [] :=
      List.filter_eq_nil_iff.mpr fun visit hvisit hlt =>
        Nat.not_lt.mpr (hlater visit hvisit) (of_decide_eq_true hlt)
    rw [hvisits, List.filter_append, filter_eq_self_of_before hseen, hnone, List.append_nil]
  ended h := absurd h hends
  overdue _ := rfl

theorem Cut.calls_eq (h : Cut limit free bound) :
    bound.calls = free.calls.filter (·.2.time < limit) := by
  simp only [Dispatch.calls, h.visits_eq, List.filter_filter, Bool.and_comm]

theorem Cut.preceded (h : Cut limit free bound) {seen : List (Nat × Visit)}
    (hseen : ∀ visit ∈ seen, visit.2.time < limit) :
    Cut limit (free.preceded seen) (bound.preceded seen) where
  begins := (List.prefix_append_right_inj seen).mpr h.begins
  visits_eq := by
    simp only [Dispatch.preceded, List.filter_append, filter_eq_self_of_before hseen, ← h.visits_eq]
  ended hends := congrArg (Dispatch.preceded seen) (h.ended hends)
  overdue hends := h.overdue hends

end Dispatch

theorem Step.settled_ne_stalled (step : Step) (time finish : Nat) (result : Except Fault Outcome) :
    step.settled time result ≠ .stop finish .stalled := by
  intro h
  cases result with
  | ok outcome => cases outcome <;> cases h
  | error fault => cases fault <;> cases h

theorem Step.turn_some (step : Step) (r : Request) (hbefore : time < limit) :
    step.turn (some limit) r time = step.turn none r time ∧
        (step.turn none r time).time < limit ∧
        (∀ finish, step.turn none r time ≠ .stop finish .stalled) ∨
      ∃ finish, step.turn (some limit) r time = .stop finish .overdue ∧
        (limit ≤ (step.turn none r time).time ∨
          ∃ finish, step.turn none r time = .stop finish .stalled) := by
  unfold Step.turn
  split
  · exact .inl ⟨rfl, hbefore, fun _ h => by cases h⟩
  · exact .inl ⟨rfl, hbefore, fun _ h => by cases h⟩
  · split
    · exact .inr ⟨time, rfl, .inr ⟨time, rfl⟩⟩
    next delay result _ =>
      simp only [isDue, Bool.false_eq_true, if_false, decide_eq_true_eq, Step.time_settled]
      by_cases hdue : limit ≤ time + delay
      · exact .inr ⟨time + delay, if_pos hdue, .inl hdue⟩
      · exact .inl ⟨if_neg hdue, Nat.lt_of_not_le hdue, fun _ => step.settled_ne_stalled _ _ _⟩

theorem cut_conclude_runSteps
    (hrest : ∀ q time, time < limit → Dispatch.Cut limit
      (rest.dispatchFrom none (position + 1) q time)
      (rest.dispatchFrom (some limit) (position + 1) q time))
    (index : Nat) (steps : List Step) (r : Request) (hbefore : time < limit) :
    Dispatch.Cut limit
      ((runSteps none index steps r time).conclude none uri position name rest)
      ((runSteps (some limit) index steps r time).conclude (some limit) uri position name rest) := by
  induction steps generalizing index r time with
  | nil => exact hrest { r with uri } time hbefore
  | cons step steps ih =>
    have hvisit : ∀ visit ∈ [(position, step.visit index r time)], visit.2.time < limit :=
      List.forall_mem_singleton.mpr hbefore
    rw [runSteps_cons, runSteps_cons]
    rcases step.turn_some r hbefore with ⟨hturn, htime, hstalled⟩ | ⟨finish, hturn, hlate⟩
    · -- the deadline does not show in this turn
      rw [hturn]
      cases hnone : step.turn none r time with
      | on next later =>
        rw [hnone] at htime
        rw [Turn.run, Turn.run, Table.conclude_after, Table.conclude_after]
        exact (ih _ next htime).preceded hvisit
      | stop later ending =>
        rw [hnone] at htime
        rw [Turn.run, Turn.run, Step.conclude_of_stop hnone, Step.conclude_of_stop hnone]
        have hends : ending.conclusion name ≠ .stalled := fun h =>
          hstalled later (Ending.eq_stalled_of_conclusion h ▸ hnone)
        exact Dispatch.EndsBefore.cut ⟨hends, htime⟩ hvisit
    · -- the deadline comes during this turn, which without it goes on later or never
      rw [hturn, Turn.run, Step.conclude_of_stop hturn]
      cases hnone : step.turn none r time with
      | on next later =>
        have hlate : limit ≤ later := by simpa [hnone, Turn.time] using hlate
        have hsince := (since_conclude_runSteps (Table.since_dispatchFrom none (position + 1) rest)
          uri name (index + 1) steps next later).mono hlate
        rw [Turn.run, Table.conclude_after]
        refine Dispatch.cut_of_not_endsBefore ?_ hvisit hsince.1 ?_ finish
        · rfl
        · exact fun hends => absurd hends.2 (Nat.not_lt.mpr hsince.2)
      | stop later ending =>
        rw [Turn.run, Step.conclude_of_stop hnone]
        refine Dispatch.cut_of_not_endsBefore (List.append_nil _).symm hvisit
          (List.forall_mem_nil _) (fun hends => ?_) finish
        rcases hlate with hlate | ⟨_, hstall⟩
        · rw [hnone] at hlate
          exact absurd hends.2 (Nat.not_lt.mpr hlate)
        · obtain ⟨_, rfl⟩ := Turn.stop.inj (hnone.symm.trans hstall)
          exact hends.1 rfl

namespace Table

theorem cut_dispatchFrom (position : Nat) (table : Table) (r : Request) (hbefore : time < limit) :
    Dispatch.Cut limit (table.dispatchFrom none position r time)
      (table.dispatchFrom (some limit) position r time) := by
  induction table generalizing position r time with
  | nil => exact Dispatch.EndsBefore.cut ⟨nofun, hbefore⟩ (List.forall_mem_nil _)
  | cons mount rest ih =>
    cases hadmits : mount.endpoint.admits r with
    | false =>
      rw [dispatchFrom_cons_of_not_admits _ _ _ hadmits,
        dispatchFrom_cons_of_not_admits _ _ _ hadmits]
      exact ih _ _ hbefore
    | true =>
      obtain ⟨relative, hrelative⟩ := Endpoint.exists_strip_of_admits hadmits
      rw [dispatchFrom_cons_of_admits _ _ _ hadmits hrelative,
        dispatchFrom_cons_of_admits _ _ _ hadmits hrelative]
      exact cut_conclude_runSteps (fun q _ => ih _ q) _ _ _ hbefore

end Table

theorem Router.cut_dispatch (router : Router) (table : Table) (r : Request) :
    Dispatch.Cut router.deadline (table.dispatch none r) (router.dispatch table r) := by
  unfold Router.dispatch
  split
  next hzero =>
    rw [hzero]
    exact Dispatch.cut_of_not_endsBefore rfl (List.forall_mem_nil _) (fun _ _ => Nat.zero_le _)
      (fun hends => Nat.not_lt_zero _ hends.2) 0
  next hne => exact Table.cut_dispatchFrom 0 table _ (Nat.pos_of_ne_zero hne)

end ApiGateway
