import ApiGateway.Proofs.Mount.Walk

/-! What a dispatch does, read off its walk: which handlers it calls, in which order, and whose
response it gives. -/

namespace ApiGateway

def Earlier (a b : Nat × Visit) : Prop := a.1 < b.1 ∨ a.1 = b.1 ∧ a.2.step < b.2.step

def Waypoint.NotAfter : Waypoint → Nat × Visit → Prop
  | .mount position _ _, visit => position ≤ visit.1
  | .step position index _ _, visit =>
    position < visit.1 ∨ position = visit.1 ∧ index ≤ visit.2.step

namespace Table

variable {table : Table} {uri : Uri} {r : Request} {w next : Waypoint}

/-! ## Visits -/

theorem mem_visitsAt {position : Nat} {visit : Visit} (h : (position, visit) ∈ table.visitsAt w) :
    w = .step position visit.step visit.request visit.time ∧
      ∃ mount step, table[position]? = some mount ∧
        mount.chain.steps[visit.step]? = some step ∧ step.action = visit.action ∧
        visit.called = step.takes visit.request := by
  cases w with
  | mount => exact absurd h List.not_mem_nil
  | step at' index q time =>
    simp only [visitsAt] at h
    split at h
    next step hstep =>
      obtain ⟨rfl, rfl⟩ := Prod.mk.inj (List.mem_singleton.mp h)
      obtain ⟨mount, hmount, hstep⟩ := Option.bind_eq_some_iff.mp hstep
      exact ⟨rfl, mount, step, hmount, hstep, rfl, rfl⟩
    next => exact absurd h List.not_mem_nil

theorem exists_reaches_of_mem_resume (hw : table.Reaches r w) :
    ∀ visit ∈ (table.resume r.uri w).visits,
      ∃ w', table.Reaches r w' ∧ visit ∈ table.visitsAt w' := by
  refine Reaches.resume_induction
    (motive := fun _ d => ∀ visit ∈ d.visits, ∃ w', table.Reaches r w' ∧ visit ∈ table.visitsAt w')
    (fun hw _ visit hvisit => ⟨_, hw, hvisit⟩) (fun hw _ ih visit hvisit => ?_) hw
  rcases List.mem_append.mp hvisit with hhere | hlater
  · exact ⟨_, hw, hhere⟩
  · exact ih visit hlater

theorem Reaches.dispatch_eq (hw : table.Reaches r w) :
    ∃ seen, table.dispatch none r = (table.resume r.uri w).preceded seen := by
  induction hw with
  | start => exact ⟨[], rfl⟩
  | @move w next hw hmove ih =>
    obtain ⟨seen, hseen⟩ := ih
    refine ⟨seen ++ table.visitsAt w, ?_⟩
    rw [hseen, resume_of_moves (fun h => (h ▸ hw).uri_eq) hmove]
    simp only [Dispatch.preceded, List.append_assoc]

theorem visitsAt_subset_resume (hw : table.Reaches r w) :
    ∀ visit ∈ table.visitsAt w, visit ∈ (table.resume r.uri w).visits :=
  Reaches.resume_induction (motive := fun w d => ∀ visit ∈ table.visitsAt w, visit ∈ d.visits)
    (fun _ _ _ h => h) (fun _ _ _ _ h => List.mem_append_left _ h) hw

theorem mem_visits_dispatch {visit : Nat × Visit} :
    visit ∈ (table.dispatch none r).visits ↔
      ∃ w, table.Reaches r w ∧ visit ∈ table.visitsAt w := by
  refine ⟨exists_reaches_of_mem_resume .start visit, fun ⟨w, hw, hvisit⟩ => ?_⟩
  obtain ⟨seen, hseen⟩ := hw.dispatch_eq
  rw [hseen]
  exact List.mem_append_right _ (visitsAt_subset_resume hw visit hvisit)

theorem takes_iff {step : Step} :
    step.takes r = true ↔ step.condition.evaluate r.view = .ok true := by
  unfold Step.takes
  split
  next holds heq => simp only [heq, Except.ok.injEq]
  next heq => simp only [heq, Bool.false_eq_true, reduceCtorEq]

theorem mem_calls_dispatch {position : Nat} {visit : Visit} :
    (position, visit) ∈ (table.dispatch none r).calls ↔
      visit.called = true ∧
        table.Reaches r (.step position visit.step visit.request visit.time) ∧
        ∃ mount step, table[position]? = some mount ∧
          mount.chain.steps[visit.step]? = some step ∧ step.action = visit.action ∧
          step.condition.evaluate visit.request.view = .ok true := by
  simp only [Dispatch.calls, List.mem_filter, mem_visits_dispatch]
  constructor
  · rintro ⟨⟨w, hw, hvisit⟩, hcalled⟩
    obtain ⟨rfl, mount, step, hmount, hstep, haction, htakes⟩ := mem_visitsAt hvisit
    exact ⟨hcalled, hw, mount, step, hmount, hstep, haction, takes_iff.mp (htakes ▸ hcalled)⟩
  · rintro ⟨hcalled, hw, mount, step, hmount, hstep, haction, htrue⟩
    refine ⟨⟨_, hw, ?_⟩, hcalled⟩
    rw [visitsAt_step hmount hstep, takes_iff.mpr htrue, haction, ← hcalled]
    exact List.mem_singleton.mpr rfl

/-! ## Order -/

theorem Moves.notAfter (hmove : table.Moves uri w next) {visit : Nat × Visit}
    (hvisit : next.NotAfter visit) : w.NotAfter visit := by
  cases hmove <;> simp only [Waypoint.NotAfter] at hvisit ⊢ <;> omega

theorem notAfter_of_mem_visitsAt {visit : Nat × Visit} (hvisit : visit ∈ table.visitsAt w) :
    w.NotAfter visit := by
  obtain ⟨rfl, _⟩ := mem_visitsAt hvisit
  exact Or.inr ⟨rfl, Nat.le_refl _⟩

theorem Moves.earlier (hmove : table.Moves uri w next) {a b : Nat × Visit}
    (ha : a ∈ table.visitsAt w) (hb : next.NotAfter b) : Earlier a b := by
  have hat := (mem_visitsAt ha).1
  cases hmove <;> simp only [Waypoint.step.injEq, reduceCtorEq] at hat <;>
    simp only [Waypoint.NotAfter, Earlier] at hb ⊢ <;> omega

theorem pairwise_visitsAt (w : Waypoint) : (table.visitsAt w).Pairwise Earlier := by
  cases w with
  | mount => exact List.Pairwise.nil
  | step =>
    simp only [visitsAt]
    split
    · exact List.pairwise_singleton _ _
    · exact List.Pairwise.nil

theorem Reaches.visits_resume (hw : table.Reaches r w) :
    (∀ visit ∈ (table.resume r.uri w).visits, w.NotAfter visit) ∧
      (table.resume r.uri w).visits.Pairwise Earlier := by
  refine Reaches.resume_induction
    (motive := fun w d => (∀ visit ∈ d.visits, w.NotAfter visit) ∧ d.visits.Pairwise Earlier)
    (fun _ _ => ⟨fun _ => notAfter_of_mem_visitsAt, pairwise_visitsAt _⟩)
    (fun _ hmove ih => ⟨fun visit hvisit => ?_, ?_⟩) hw
  · rcases List.mem_append.mp hvisit with hhere | hlater
    · exact notAfter_of_mem_visitsAt hhere
    · exact hmove.notAfter (ih.1 visit hlater)
  · exact List.pairwise_append.mpr
      ⟨pairwise_visitsAt _, ih.2, fun a ha b hb => hmove.earlier ha (ih.1 b hb)⟩

theorem pairwise_visits_dispatch (table : Table) (r : Request) :
    (table.dispatch none r).visits.Pairwise Earlier := Reaches.start.visits_resume.2

/-! ## Conclusion -/

theorem conclusion_dispatch {conclusion : Conclusion} :
    (table.dispatch none r).conclusion = conclusion ↔
      ∃ w time, table.Reaches r w ∧ table.Ends w time conclusion := by
  constructor
  · rintro rfl
    exact Reaches.resume_induction
      (motive := fun _ d => ∃ w time, table.Reaches r w ∧ table.Ends w time d.conclusion)
      (fun hw hends => ⟨_, _, hw, hends⟩) (fun _ _ ih => ih) .start
  · rintro ⟨w, time, hw, hends⟩
    obtain ⟨seen, hseen⟩ := hw.dispatch_eq
    rw [hseen, resume_of_ends hends]
    rfl

theorem conclusion_dispatch_unmatched :
    (table.dispatch none r).conclusion = .responded .unmatched .notFound ↔
      ∃ q time, table.Reaches r (.mount table.length q time) := by
  rw [conclusion_dispatch]
  constructor
  · rintro ⟨w, time, hw, hends⟩
    cases hends
    exact ⟨_, _, hw⟩
  · rintro ⟨q, time, hw⟩
    exact ⟨_, _, hw, .unmatched⟩

theorem exists_visit_of_ends {position index time finish : Nat} {q : Request}
    {conclusion : Conclusion} (hends : table.Ends (.step position index q time) finish conclusion) :
    ∃ visit, table.visitsAt (.step position index q time) = [(position, visit)] ∧
      visit.step = index := by
  cases hends <;> exact ⟨_, visitsAt_step ‹_› ‹_›, rfl⟩

theorem le_of_ends {position index time finish : Nat} {q : Request} {conclusion : Conclusion}
    (hw : table.Reaches r (.step position index q time))
    (hends : table.Ends (.step position index q time) finish conclusion) :
    ∀ visit ∈ (table.dispatch none r).visits,
      visit.1 < position ∨ visit.1 = position ∧ visit.2.step ≤ index := by
  intro visit hvisit
  obtain ⟨seen, hseen⟩ := hw.dispatch_eq
  obtain ⟨last, hlast, rfl⟩ := exists_visit_of_ends hends
  have hvisits : (table.dispatch none r).visits = seen ++ [(position, last)] := by
    rw [hseen, resume_of_ends hends, ← hlast]
    rfl
  -- the step where the walk ends is the last one visited, and the visits are in order
  have horder := pairwise_visits_dispatch table r
  rw [hvisits] at horder hvisit
  rcases List.mem_append.mp hvisit with hbefore | hlast
  · have h := (List.pairwise_append.mp horder).2.2 visit hbefore _ (List.mem_singleton.mpr rfl)
    exact h.imp_right fun h => ⟨h.1, Nat.le_of_lt h.2⟩
  · rw [List.mem_singleton.mp hlast]
    exact Or.inr ⟨rfl, Nat.le_refl _⟩

/-- A dispatch is a walk over the steps of all mounts. It calls the handlers of the steps that the
walk comes to and whose conditions hold there, in the order of the table and none of them twice.
Its conclusion is the one of the point where the walk ends, after which no handler is called. -/
theorem dispatch_walks (table : Table) (r : Request) :
    (∀ position visit, (position, visit) ∈ (table.dispatch none r).calls ↔
      visit.called = true ∧
        table.Reaches r (.step position visit.step visit.request visit.time) ∧
        ∃ mount step, table[position]? = some mount ∧
          mount.chain.steps[visit.step]? = some step ∧ step.action = visit.action ∧
          step.condition.evaluate visit.request.view = .ok true) ∧
    (table.dispatch none r).calls.Pairwise Earlier ∧
    (∀ conclusion, (table.dispatch none r).conclusion = conclusion ↔
      ∃ w time, table.Reaches r w ∧ table.Ends w time conclusion) ∧
    ((table.dispatch none r).conclusion = .responded .unmatched .notFound ↔
      ∃ q time, table.Reaches r (.mount table.length q time)) ∧
    ∀ position index q time finish conclusion,
      table.Reaches r (.step position index q time) →
        table.Ends (.step position index q time) finish conclusion →
          ∀ call ∈ (table.dispatch none r).calls,
            call.1 < position ∨ call.1 = position ∧ call.2.step ≤ index := by
  refine ⟨fun _ _ => mem_calls_dispatch, (pairwise_visits_dispatch table r).filter _,
    fun _ => conclusion_dispatch, conclusion_dispatch_unmatched, ?_⟩
  intro position index q time finish conclusion hw hends call hcall
  exact le_of_ends hw hends call (List.mem_filter.mp hcall).1

end Table
end ApiGateway
