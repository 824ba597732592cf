import ApiGateway.Proofs.Flight.Machine
import ApiGateway.Proofs.Mount.Dispatch

/-! What a dispatch under way will have come to. No step changes it, so it is what the dispatch
comes to when nothing interrupts it, and every dispatch gets there in a bounded number of steps
unless a handler never settles. -/

namespace ApiGateway

namespace Place

variable {table : Table} {place : Place} {step : Step} {r : Request} {time : Nat} {called : Bool}

theorem Within.next (h : place.Within table) (hstep : place.step? = some step) :
    place.next.Within table := ⟨h.1, (List.getElem?_eq_some_iff.mp hstep).1⟩

theorem Within.entry (h : place.Within table) (hstep : place.step? = some step) :
    (place.entry step r time called).Within table := ⟨place.mount, h.1, hstep⟩

theorem Within.points (h : place.Within table) :
    Table.points (table.drop place.position) =
      place.mount.chain.steps.length + 2 + Table.points (table.drop (place.position + 1)) := by
  rw [Table.drop_of_getElem? h.1]
  rfl

theorem Within.visitsAt (h : place.Within table) (hstep : place.step? = some step) :
    table.visitsAt (.step place.position place.index r time) =
      [(place.position, ⟨place.index, step.action, r, time, step.takes r⟩)] :=
  Table.visitsAt_step h.1 hstep

end Place

theorem Dispatch.preceded_preceded (a b : List (Nat × Visit)) (d : Dispatch) :
    (d.preceded b).preceded a = d.preceded (a ++ b) := by
  simp only [Dispatch.preceded, List.append_assoc]

namespace Flight

def left (f : Flight) : Dispatch :=
  match f.stage with
  | .head position r => f.table.resume f.arrival (.mount position r f.time)
  | .check place r => f.table.resume f.arrival (.step place.position place.index r f.time)
  | .call place _ r => f.table.resume f.arrival (.step place.position place.index r f.time)
  | .wait place step (.settle delay result) =>
    match place.settle step result with
    | .ok next =>
      f.table.resume f.arrival (.step place.position (place.index + 1) next (f.time + delay))
    | .error conclusion => ⟨[], f.time + delay, conclusion⟩
  | .wait _ _ .stall => ⟨[], f.time, .stalled⟩
  | .ended conclusion => ⟨[], f.time, conclusion⟩

def outcome (f : Flight) : Dispatch := f.left.preceded f.visits

def calls (f : Flight) : List (Nat × Visit) := f.visits.filter fun visit => visit.2.called

def ahead (f : Flight) : Nat :=
  match f.stage with
  | .head position _ => 3 * Table.points (f.table.drop position) + 1
  | .check place _ => 3 * (Table.points (f.table.drop place.position) - (place.index + 1)) + 3
  | .call place _ _ => 3 * (Table.points (f.table.drop place.position) - (place.index + 1)) + 2
  | .wait place _ _ => 3 * (Table.points (f.table.drop place.position) - (place.index + 1)) + 1
  | .ended _ => 0

variable {f g : Flight} {table : Table} {r : Request}

theorem Advances.table_eq (h : f.Advances g) : g.table = f.table := by
  cases h <;> rfl

theorem Advances.arrival_eq (h : f.Advances g) : g.arrival = f.arrival := by
  cases h <;> rfl

theorem Advances.within (h : f.Advances g) (hw : f.Within) : g.Within := by
  have hin := hw.stage
  have hlog : ∀ {entry : Entry}, entry.Within f.table →
      ∀ e ∈ f.log ++ [entry], e.Within f.table := by
    intro entry hentry e he
    rcases List.mem_append.mp he with he | he
    · exact hw.log e he
    · rw [List.mem_singleton.mp he]
      exact hentry
  cases h with
  | unmatched => exact ⟨trivial, hw.log⟩
  | pass hstage hmount =>
    rw [hstage] at hin
    exact ⟨⟨(List.getElem?_eq_some_iff.mp hmount).1, hin.2⟩, hw.log⟩
  | enter hstage hmount => exact ⟨⟨hmount, Nat.zero_le _⟩, hw.log⟩
  | leave hstage =>
    rw [hstage] at hin
    exact ⟨⟨(List.getElem?_eq_some_iff.mp hin.1).1, rfl⟩, hw.log⟩
  | undecided hstage hstep =>
    rw [hstage] at hin
    exact ⟨trivial, hlog (hin.entry hstep)⟩
  | skip hstage hstep =>
    rw [hstage] at hin
    exact ⟨hin.next hstep, hlog (hin.entry hstep)⟩
  | take hstage hstep htrue =>
    rw [hstage] at hin
    exact ⟨⟨hin, hstep, htrue⟩, hw.log⟩
  | call hstage =>
    rw [hstage] at hin
    exact ⟨⟨hin.1, hin.2.1⟩, hlog (hin.1.entry hin.2.1)⟩
  | hand hstage =>
    rw [hstage] at hin
    exact ⟨hin.1.next hin.2, hw.log⟩
  | conclude => exact ⟨trivial, hw.log⟩
  | rest => exact hw

theorem outcome_moved (time : Nat) (stage : Stage)
    (hleft : f.left = ({ f with time, stage } : Flight).left) :
    ({ f with time, stage } : Flight).outcome = f.outcome := by
  rw [outcome, outcome, hleft]
  rfl

theorem outcome_recorded (entry : Entry) (stage : Stage)
    (hleft : f.left = ({ f with log := f.log ++ [entry], stage } : Flight).left.preceded
      [(entry.position, entry.visit)]) :
    ({ f with log := f.log ++ [entry], stage } : Flight).outcome = f.outcome := by
  have hvisits : ({ f with log := f.log ++ [entry], stage } : Flight).visits =
      f.visits ++ [(entry.position, entry.visit)] := List.map_append
  rw [outcome, outcome, hleft, hvisits, Dispatch.preceded_preceded]

theorem resume_call {place : Place} {step : Step} {q : Request} (hplace : place.Within f.table)
    (hstep : place.step? = some step) (htrue : step.condition.evaluate q.view = .ok true) :
    f.table.resume f.arrival (.step place.position place.index q f.time) =
      ({ f with stage := .wait place step (step.handler q) } : Flight).left.preceded
        [(place.position, ⟨place.index, step.action, q, f.time, true⟩)] := by
  have hvisits : f.table.visitsAt (.step place.position place.index q f.time) =
      [(place.position, ⟨place.index, step.action, q, f.time, step.takes q⟩)] :=
    hplace.visitsAt hstep
  rw [Table.takes_iff.mpr htrue] at hvisits
  have hends : ∀ {time conclusion},
      f.table.Ends (.step place.position place.index q f.time) time conclusion →
      f.table.resume f.arrival (.step place.position place.index q f.time) =
        ⟨[(place.position, ⟨place.index, step.action, q, f.time, true⟩)], time, conclusion⟩ := by
    intro time conclusion h
    rw [Table.resume_of_ends h, hvisits]
  cases hreaction : step.handler q with
  | stall => exact hends (.stalled hplace.1 hstep htrue hreaction)
  | settle delay result =>
    match result with
    | .ok (.answer response) => exact hends (.answered hplace.1 hstep htrue hreaction)
    | .error (.error e) => exact hends (.failed hplace.1 hstep htrue hreaction)
    | .error .panic => exact hends (.panicked hplace.1 hstep htrue hreaction)
    | .ok (.pass next) =>
      rw [Table.resume_of_moves (by nofun) (.hand hplace.1 hstep htrue hreaction), hvisits]
      rfl

theorem Advances.outcome (h : f.Advances g) (hw : f.Within) : g.outcome = f.outcome := by
  have hin := hw.stage
  cases h with
  | unmatched hstage =>
    apply outcome_moved
    simp only [left, hstage]
    exact Table.resume_of_ends .unmatched
  | pass hstage hmount hadmits =>
    rw [hstage] at hin
    apply outcome_moved
    simp only [left, hstage]
    exact Table.resume_of_moves (fun h => by cases h; exact hin.2) (.pass hmount hadmits)
  | enter hstage hmount hadmits hrest =>
    rw [hstage] at hin
    rw [← hin.2] at hrest
    apply outcome_moved
    simp only [left, hstage]
    exact Table.resume_of_moves (fun h => by cases h; exact hin.2) (.enter hmount hadmits hrest)
  | leave hstage hindex =>
    rw [hstage] at hin
    apply outcome_moved
    simp only [left, hstage, hindex]
    rw [Table.resume_of_moves (fun h => by cases h) (.leave hin.1)]
    -- past the last step nothing is recorded any more
    simp only [Table.visitsAt, hin.1, Option.bind_some, List.getElem?_eq_none (Nat.le_refl _)]
    rfl
  | undecided hstage hstep herror =>
    rw [hstage] at hin
    apply outcome_recorded
    simp only [left, hstage]
    rw [Table.resume_of_ends (.undecided hin.1 hstep herror), hin.visitsAt hstep]
    simp only [Step.takes, herror]
    rfl
  | skip hstage hstep hfalse =>
    rw [hstage] at hin
    apply outcome_recorded
    simp only [left, hstage]
    rw [Table.resume_of_moves (fun h => by cases h) (.skip hin.1 hstep hfalse), hin.visitsAt hstep]
    simp only [Step.takes, hfalse]
    rfl
  | take hstage =>
    apply outcome_moved
    simp only [left, hstage]
  | call hstage =>
    rw [hstage] at hin
    apply outcome_recorded
    simp only [left, hstage]
    exact resume_call hin.1 hin.2.1 hin.2.2
  | hand hstage hnext =>
    apply outcome_moved
    simp only [left, hstage, hnext, Place.next]
  | conclude hstage hconclusion =>
    apply outcome_moved
    simp only [left, hstage, hconclusion]
  | rest => rfl

theorem Advances.ahead_lt (h : f.Advances g) (hw : f.Within) (hend : f.conclusion? = none) :
    g.ahead < f.ahead := by
  -- a point of the walk is worth three steps: the condition, the call and the handler's return
  have hin := hw.stage
  have hstep_lt : ∀ {place : Place} {step : Step}, place.step? = some step →
      place.index < place.mount.chain.steps.length :=
    fun hstep => (List.getElem?_eq_some_iff.mp hstep).1
  cases h with
  | unmatched hstage | take hstage | undecided hstage | conclude hstage =>
    simp only [ahead, hstage]
    omega
  | call hstage =>
    simp only [ahead, hstage]
    omega
  | pass hstage hmount | enter hstage hmount =>
    simp only [ahead, hstage, Table.drop_of_getElem? hmount, Table.points]
    omega
  | leave hstage hindex =>
    rw [hstage] at hin
    simp only [ahead, hstage, hin.points]
    omega
  | skip hstage hstep =>
    rw [hstage] at hin
    have hlt := hstep_lt hstep
    simp only [ahead, hstage, Place.next, hin.points]
    omega
  | hand hstage =>
    rw [hstage] at hin
    have hlt := hstep_lt hin.2
    simp only [ahead, hstage, Place.next, hin.1.points]
    omega
  | rest hconclusion => exact absurd (hconclusion.symm.trans hend) (Option.some_ne_none _)

/-! ## Dispatches that nothing interrupts -/

def after (table : Table) (r : Request) (n : Nat) : Flight := advance^[n] (start table r)

theorem within_start (table : Table) (r : Request) : (start table r).Within :=
  ⟨⟨Nat.zero_le _, rfl⟩, List.forall_mem_nil _⟩

theorem after_succ (table : Table) (r : Request) (n : Nat) :
    after table r (n + 1) = (after table r n).advance := Function.iterate_succ_apply' ..

theorem within_after (table : Table) (r : Request) (n : Nat) : (after table r n).Within := by
  induction n with
  | zero => exact within_start table r
  | succ n ih =>
    rw [after_succ]
    exact (advances ih).within ih

theorem advances_after (table : Table) (r : Request) (n : Nat) :
    (after table r n).Advances (after table r (n + 1)) := by
  rw [after_succ]
  exact advances (within_after table r n)

theorem table_after (table : Table) (r : Request) (n : Nat) : (after table r n).table = table := by
  induction n with
  | zero => rfl
  | succ n ih => rw [(advances_after table r n).table_eq, ih]

theorem arrival_after (table : Table) (r : Request) (n : Nat) :
    (after table r n).arrival = r.uri := by
  induction n with
  | zero => rfl
  | succ n ih => rw [(advances_after table r n).arrival_eq, ih]

theorem outcome_after (table : Table) (r : Request) (n : Nat) :
    (after table r n).outcome = table.dispatch none r := by
  induction n with
  | zero => rfl
  | succ n ih => rw [(advances_after table r n).outcome (within_after table r n), ih]

theorem conclusion?_eq_some {conclusion : Conclusion} :
    f.conclusion? = some conclusion ↔
      f.stage = .ended conclusion ∨
        ∃ place step, f.stage = .wait place step .stall ∧ conclusion = .stalled := by
  unfold conclusion?
  constructor
  · intro h
    split at h
    next hstage => exact Or.inl (Option.some.inj h ▸ hstage)
    next hstage => exact Or.inr ⟨_, _, hstage, (Option.some.inj h).symm⟩
    next => cases h
  · rintro (hstage | ⟨place, step, hstage, rfl⟩)
    · simp only [hstage]
    · simp only [hstage]

theorem outcome_of_conclusion? {conclusion : Conclusion} (h : f.conclusion? = some conclusion) :
    f.outcome = ⟨f.visits, f.time, conclusion⟩ := by
  rcases conclusion?_eq_some.mp h with hstage | ⟨place, step, hstage, rfl⟩ <;>
    simp only [outcome, left, hstage, Dispatch.preceded, List.append_nil]

theorem advance_of_conclusion? {conclusion : Conclusion} (h : f.conclusion? = some conclusion) :
    f.advance = f := by
  rcases conclusion?_eq_some.mp h with hstage | ⟨place, step, hstage, rfl⟩ <;>
    simp only [advance, hstage]

theorem visits_prefix (table : Table) (r : Request) (n : Nat) :
    (after table r n).visits <+: (table.dispatch none r).visits :=
  ⟨(after table r n).left.visits, congrArg Dispatch.visits (outcome_after table r n)⟩

theorem dispatch_of_conclusion? {n : Nat} {conclusion : Conclusion}
    (h : (after table r n).conclusion? = some conclusion) :
    table.dispatch none r = ⟨(after table r n).visits, (after table r n).time, conclusion⟩ := by
  rw [← outcome_after table r n, outcome_of_conclusion? h]

theorem ended_or_ahead_le (table : Table) (r : Request) (n : Nat) :
    (∃ conclusion, (after table r n).conclusion? = some conclusion) ∨
      (after table r n).ahead + n ≤ 3 * Table.points table + 1 := by
  induction n with
  | zero => exact Or.inr (Nat.le_refl _)
  | succ n ih =>
    cases hend : (after table r n).conclusion? with
    | some conclusion =>
      left
      refine ⟨conclusion, ?_⟩
      rw [after_succ, advance_of_conclusion? hend, hend]
    | none =>
      right
      have hle := ih.resolve_left (by rw [hend]; nofun)
      have hlt := (advances_after table r n).ahead_lt (within_after table r n) hend
      omega

theorem exists_conclusion_after {n : Nat} (hn : 3 * Table.points table + 1 ≤ n) :
    ∃ conclusion, (after table r n).conclusion? = some conclusion := by
  rcases ended_or_ahead_le table r n with h | h
  · exact h
  · have hzero : (after table r n).ahead = 0 := by omega
    cases hstage : (after table r n).stage with
    | ended conclusion => exact ⟨conclusion, conclusion?_eq_some.mpr (Or.inl hstage)⟩
    | head | check | call | wait =>
      simp only [ahead, hstage] at hzero
      omega

end Flight
end ApiGateway
