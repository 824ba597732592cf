import ApiGateway.Proofs.Mount.Deadline
import ApiGateway.Proofs.Mount.Dispatch

/-! Where a walk comes to a response: inside the chain at one mount, which is none of those that it
fell through, or past the last mount. A deadline keeps the responses that come before it. -/

namespace ApiGateway

def InTime (deadline : Option Nat) (time : Nat) : Prop := ∀ limit ∈ deadline, time < limit

def Dispatch.verdict? (d : Dispatch) : Option Verdict :=
  match d.conclusion with
  | .responded verdict _ => some verdict
  | _ => none

namespace Table

/-- The walk of a request ends at a step of the chain at a mount, in time and with a response. -/
def RespondsAt (table : Table) (deadline : Option Nat) (r : Request) (position : Nat)
    (verdict : Verdict) : Prop :=
  ∃ index q time finish response, table.Reaches r (.step position index q time) ∧
    table.Ends (.step position index q time) finish (.responded verdict response) ∧
    InTime deadline finish

def Unanswered (table : Table) (deadline : Option Nat) (r : Request) : Prop :=
  ∃ q time, table.Reaches r (.mount table.length q time) ∧ InTime deadline time

def FallsThrough (table : Table) (r : Request) (position : Nat) : Prop :=
  ∃ mount q time, table[position]? = some mount ∧
    table.Reaches r (.step position mount.chain.steps.length q time)

def Responds (table : Table) (deadline : Option Nat) (r : Request) (verdict : Verdict) : Prop :=
  ∃ w finish response, table.Reaches r w ∧
    table.Ends w finish (.responded verdict response) ∧ InTime deadline finish

variable {table : Table} {r : Request} {w : Waypoint} {deadline : Option Nat}
  {verdict : Verdict} {position : Nat}

theorem responds_iff : table.Responds deadline r verdict ↔
    (∃ position, table.RespondsAt deadline r position verdict) ∨
      verdict = .unmatched ∧ table.Unanswered deadline r := by
  constructor
  · rintro ⟨w, finish, response, hw, hends, hdue⟩
    cases w with
    | mount => cases hends; exact .inr ⟨rfl, _, _, hw, hdue⟩
    | step position => exact .inl ⟨position, _, _, _, _, _, hw, hends, hdue⟩
  · rintro (⟨_, _, _, _, finish, response, hw, hends, hdue⟩ | ⟨rfl, q, time, hw, hdue⟩)
    · exact ⟨_, finish, response, hw, hends, hdue⟩
    · exact ⟨_, time, _, hw, .unmatched, hdue⟩

/-! ## Which mount -/

theorem Ends.lt_length {index time finish : Nat} {q : Request} {conclusion : Conclusion}
    {mount : Mount} (hends : table.Ends (.step position index q time) finish conclusion)
    (hmount : table[position]? = some mount) : index < mount.chain.steps.length := by
  obtain ⟨visit, hvisit, rfl⟩ := exists_visit_of_ends hends
  obtain ⟨_, _, _, hmount', hstep, _⟩ := mem_visitsAt (hvisit ▸ List.mem_singleton.mpr rfl)
  obtain rfl := Option.some.inj (hmount.symm.trans hmount')
  exact (List.getElem?_eq_some_iff.mp hstep).1

theorem conclusion_resume_of_visits (hw : table.Reaches r w) :
    (table.resume r.uri w).visits = [] →
      (table.resume r.uri w).conclusion = .responded .unmatched .notFound := by
  refine Reaches.resume_induction
    (motive := fun _ d => d.visits = [] → d.conclusion = .responded .unmatched .notFound)
    (fun {w _ _} _ hends hnone => ?_) (fun _ _ ih hnone => ih (List.append_eq_nil_iff.mp hnone).2)
    hw
  cases w with
  | mount => cases hends; rfl
  | step =>
    obtain ⟨visit, hvisit, _⟩ := exists_visit_of_ends hends
    rw [hvisit] at hnone
    cases hnone

theorem RespondsAt.verdict_eq (h : table.RespondsAt deadline r position verdict) :
    ∃ mount : Mount, table[position]? = some mount ∧
      (verdict = .handled mount.chain.pipeline ∨
        ∃ e, verdict = .failed mount.chain.pipeline e) := by
  obtain ⟨_, _, _, _, _, _, hends, _⟩ := h
  cases hends with
  | answered hmount => exact ⟨_, hmount, .inl rfl⟩
  | undecided hmount | failed hmount => exact ⟨_, hmount, .inr ⟨_, rfl⟩⟩

theorem RespondsAt.ne_unmatched (h : table.RespondsAt deadline r position verdict) :
    verdict ≠ .unmatched := by
  obtain ⟨_, _, rfl | ⟨_, rfl⟩⟩ := h.verdict_eq <;> nofun

theorem RespondsAt.not_fallsThrough (h : table.RespondsAt deadline r position verdict) :
    ¬ table.FallsThrough r position := by
  have hmatched := h.ne_unmatched
  obtain ⟨index, q, time, finish, response, hw, hends, _⟩ := h
  rintro ⟨mount, q', time', hmount, hleft⟩
  obtain ⟨seen, hseen⟩ := hleft.dispatch_eq
  -- what is visited after the chain is left lies behind it, and before the step that responds
  have hnone : (table.resume r.uri
      (.step position mount.chain.steps.length q' time')).visits = [] := by
    refine List.eq_nil_iff_forall_not_mem.mpr fun visit hvisit => ?_
    have hbehind := hleft.visits_resume.1 visit hvisit
    have hbefore := le_of_ends hw hends visit (hseen ▸ List.mem_append_right _ hvisit)
    have hlt := hends.lt_length hmount
    simp only [Waypoint.NotAfter] at hbehind
    omega
  have hunmatched : (table.dispatch none r).conclusion = .responded .unmatched .notFound := by
    rw [hseen]
    exact conclusion_resume_of_visits hleft hnone
  have hresponded := conclusion_dispatch.mpr ⟨_, _, hw, hends⟩
  rw [hunmatched] at hresponded
  cases hresponded
  exact hmatched rfl

/-! ## In time -/

theorem time_dispatch {finish : Nat} {conclusion : Conclusion} (hw : table.Reaches r w)
    (hends : table.Ends w finish conclusion) : (table.dispatch none r).time = finish := by
  obtain ⟨seen, hseen⟩ := hw.dispatch_eq
  rw [hseen, resume_of_ends hends]
  rfl

theorem verdict?_eq_some {d : Dispatch} :
    d.verdict? = some verdict ↔ ∃ response, d.conclusion = .responded verdict response := by
  unfold Dispatch.verdict?
  cases d.conclusion <;> simp

theorem verdict?_dispatch :
    (table.dispatch none r).verdict? = some verdict ↔ table.Responds none r verdict := by
  simp only [verdict?_eq_some, conclusion_dispatch, Responds]
  constructor
  · rintro ⟨response, w, finish, hw, hends⟩
    exact ⟨w, finish, response, hw, hends, nofun⟩
  · rintro ⟨w, finish, response, hw, hends, _⟩
    exact ⟨response, w, finish, hw, hends⟩

theorem verdict?_router_dispatch (router : Router) :
    (router.dispatch table r).verdict? = some verdict ↔
      table.Responds (some router.deadline) r verdict := by
  have hcut := router.cut_dispatch table r
  rw [verdict?_eq_some]
  constructor
  · rintro ⟨response, hconclusion⟩
    by_cases hbefore : (table.dispatch none r).EndsBefore router.deadline
    · rw [hcut.ended hbefore] at hconclusion
      obtain ⟨w, finish, hw, hends⟩ := conclusion_dispatch.mp hconclusion
      refine ⟨w, finish, response, hw, hends, fun limit hlimit => ?_⟩
      rw [← time_dispatch hw hends, ← Option.some.inj hlimit]
      exact hbefore.2
    · rw [hcut.overdue hbefore] at hconclusion
      cases hconclusion
  · rintro ⟨w, finish, response, hw, hends, hdue⟩
    have hconclusion := conclusion_dispatch.mpr ⟨w, finish, hw, hends⟩
    have hbefore : (table.dispatch none r).EndsBefore router.deadline := by
      refine ⟨by rw [hconclusion]; nofun, ?_⟩
      rw [time_dispatch hw hends]
      exact hdue _ rfl
    exact ⟨response, by rw [hcut.ended hbefore, hconclusion]⟩

end Table
end ApiGateway

