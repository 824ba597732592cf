import ApiGateway.Proofs.Mount.Dispatch

/-! Who changes a request on its way. Between handlers a dispatch sets the URI and the mount path
and nothing else, so that any other part of a request is, at every step, as it arrived or as a
handler called before has left it. -/

namespace ApiGateway

def Waypoint.request : Waypoint → Request
  | .mount _ r _ => r
  | .step _ _ r _ => r

namespace Table

variable {α : Type} {table : Table} {r : Request} {w : Waypoint}

def Alters (table : Table) (part : Request → α) (call : Nat × Visit) : Prop :=
  ∃ mount step delay next, table[call.1]? = some mount ∧
    mount.chain.steps[call.2.step]? = some step ∧
    step.handler call.2.request = .settle delay (.ok (.pass next)) ∧
    part next ≠ part call.2.request

theorem Reaches.part_eq (part : Request → α)
    (hpart : ∀ q uri mountPath, part { q with uri, mountPath } = part q) (hw : table.Reaches r w) :
    part w.request = part r.recorded ∨
      ∃ call ∈ (table.dispatch none r).calls, ¬ w.NotAfter call ∧ table.Alters part call := by
  induction hw with
  | start => exact Or.inl rfl
  | @move w next hw hmove ih =>
    have hkept : part next.request = part w.request →
        part next.request = part r.recorded ∨
          ∃ call ∈ (table.dispatch none r).calls, ¬ next.NotAfter call ∧ table.Alters part call := by
      intro heq
      rcases ih with hrecorded | ⟨call, hcall, hpast, halters⟩
      · exact Or.inl (heq.trans hrecorded)
      · exact Or.inr ⟨call, hcall, fun h => hpast (hmove.notAfter h), halters⟩
    cases hmove with
    | pass | skip => exact hkept rfl
    | enter | leave => exact hkept (hpart _ _ _)
    | @hand position index q time step delay next mount hmount hstep htrue hpass =>
      by_cases heq : part next = part q
      · exact hkept heq
      · -- the handler at this very step has changed it
        right
        let visit : Visit := ⟨index, step.action, q, time, true⟩
        have hcall : (position, visit) ∈ (table.dispatch none r).calls :=
          mem_calls_dispatch.mpr ⟨rfl, hw, mount, step, hmount, hstep, rfl, htrue⟩
        refine ⟨(position, visit), hcall, ?_, mount, step, delay, next, hmount, hstep, hpass, heq⟩
        simp only [Waypoint.NotAfter, visit]
        omega

theorem part_of_mem_visits (part : Request → α)
    (hpart : ∀ q uri mountPath, part { q with uri, mountPath } = part q) {visit : Nat × Visit}
    (hvisit : visit ∈ (table.dispatch none r).visits) :
    part visit.2.request = part r.recorded ∨
      ∃ earlier ∈ (table.dispatch none r).calls, Earlier earlier visit ∧
        table.Alters part earlier := by
  obtain ⟨position, visit⟩ := visit
  obtain ⟨w, hw, hvisit⟩ := mem_visits_dispatch.mp hvisit
  obtain ⟨rfl, _⟩ := mem_visitsAt hvisit
  rcases hw.part_eq part hpart with heq | ⟨earlier, hearlier, hpast, halters⟩
  · exact Or.inl heq
  · refine Or.inr ⟨earlier, hearlier, ?_, halters⟩
    simp only [Waypoint.NotAfter] at hpast
    simp only [Earlier]
    omega

end Table
end ApiGateway
