import ApiGateway.Proofs.Flight.Outcome
import ApiGateway.Proofs.Mount.Alteration

/-! Between two chains only the URI is put back. What a chain finds in hand is what the last chain
before it left, apart from the URI and the mount path, and these two depend on nothing that a
handler did. -/

namespace ApiGateway
namespace Flight

def AtHead (f : Flight) : Prop := ∃ position q, f.stage = .head position q

def Leaves (f : Flight) (left : Request) : Prop :=
  ∃ place, f.stage = .check place left ∧ place.step? = none

/-- The request that the last chain to run within so many steps left, or the one that arrived if no
chain has run. -/
inductive Left (table : Table) (r : Request) (n : Nat) : Request → Prop where
  | arrived (hheads : ∀ k < n, (after table r k).AtHead) : Left table r n r.recorded
  | handed {m left} (hm : m < n) (hleaves : (after table r m).Leaves left)
      (hheads : ∀ k, m < k → k < n → (after table r k).AtHead) : Left table r n left

variable {f g : Flight} {table : Table} {r q left : Request} {position n : Nat} {place : Place}
  {step : Step}

theorem Left.succ (h : Left table r n left) (hhead : (after table r n).AtHead) :
    Left table r (n + 1) left := by
  cases h with
  | arrived hheads =>
    apply Left.arrived
    intro k hk
    rcases Nat.lt_succ_iff_lt_or_eq.mp hk with hlt | rfl
    · exact hheads k hlt
    · exact hhead
  | handed hm hleaves hheads =>
    apply Left.handed (Nat.lt_succ_of_lt hm) hleaves
    intro k hmk hk
    rcases Nat.lt_succ_iff_lt_or_eq.mp hk with hlt | rfl
    · exact hheads k hmk hlt
    · exact hhead

/-! ## Where a stage comes from -/

theorem Advances.of_head (h : f.Advances g) (hg : g.stage = .head position q) :
    (∃ position, f.stage = .head position q) ∨
      ∃ left, f.Leaves left ∧ q = { left with uri := f.arrival } := by
  cases h with
  | pass hstage =>
    obtain ⟨_, rfl⟩ := Stage.head.inj hg
    exact Or.inl ⟨_, hstage⟩
  | leave hstage hindex =>
    obtain ⟨_, rfl⟩ := Stage.head.inj hg
    have hnone : Place.step? _ = none := List.getElem?_eq_none (Nat.le_of_eq hindex.symm)
    exact Or.inr ⟨_, ⟨_, hstage, hnone⟩, rfl⟩
  | rest hconclusion => simp only [conclusion?, hg, reduceCtorEq] at hconclusion
  | _ => cases hg

theorem Advances.of_first (h : f.Advances g) (hg : g.stage = .check place q)
    (hfirst : place.index = 0) :
    ∃ head rest, f.stage = .head place.position head ∧
      f.table[place.position]? = some place.mount ∧ place.mount.endpoint.admits head = true ∧
      place.mount.endpoint.mountPath.strip? f.arrival.path = some rest ∧
      q = head.enter place.mount.endpoint.mountPath rest := by
  -- the first step of a chain is come to from the head of the loop only
  cases h with
  | enter hstage hmount hadmits hrest =>
    obtain ⟨rfl, rfl⟩ := Stage.check.inj hg
    exact ⟨_, _, hstage, hmount, hadmits, hrest, rfl⟩
  | skip | hand =>
    obtain ⟨rfl, _⟩ := Stage.check.inj hg
    cases hfirst
  | rest hconclusion => simp only [conclusion?, hg, reduceCtorEq] at hconclusion
  | _ => cases hg

theorem Advances.of_call (h : f.Advances g) (hg : g.stage = .call place step q) :
    f.stage = .check place q := by
  cases h with
  | take hstage =>
    obtain ⟨rfl, rfl, rfl⟩ := Stage.call.inj hg
    exact hstage
  | rest hconclusion => simp only [conclusion?, hg, reduceCtorEq] at hconclusion
  | _ => cases hg

theorem Advances.log_eq (h : f.Advances g) :
    g.log = f.log ∨ ∃ place step q called,
      g.log = f.log ++ [place.entry step q f.time called] ∧
        (f.stage = .check place q ∨ f.stage = .call place step q) := by
  cases h with
  | undecided hstage | skip hstage => exact Or.inr ⟨_, _, _, _, rfl, Or.inl hstage⟩
  | call hstage => exact Or.inr ⟨_, _, _, _, rfl, Or.inr hstage⟩
  | _ => exact Or.inl rfl

/-! ## Runs -/

theorem exists_left_of_head (hstage : (after table r n).stage = .head position q) :
    ∃ left, Left table r n left ∧ q = { left with uri := r.uri } := by
  induction n generalizing position with
  | zero =>
    obtain ⟨_, rfl⟩ := Stage.head.inj hstage
    exact ⟨r.recorded, .arrived (by nofun), rfl⟩
  | succ n ih =>
    rcases (advances_after table r n).of_head hstage with ⟨_, hhead⟩ | ⟨left, hleaves, hq⟩
    · obtain ⟨left, hleft, hq⟩ := ih hhead
      exact ⟨left, hleft.succ ⟨_, _, hhead⟩, hq⟩
    · rw [arrival_after] at hq
      refine ⟨left, .handed (Nat.lt_succ_self n) hleaves ?_, hq⟩
      intro k hnk hk
      exact absurd hk (Nat.not_lt.mpr hnk)

theorem exists_left_of_first (hstage : (after table r n).stage = .check place q)
    (hfirst : place.index = 0) :
    ∃ rest left, place.mount.endpoint.mountPath.strip? r.uri.path = some rest ∧
      Left table r n left ∧ table[place.position]? = some place.mount ∧
      place.mount.endpoint.admits { left with uri := r.uri } = true ∧
      q = { left with
        uri := r.uri.below rest
        mountPath := some place.mount.endpoint.mountPath.text } := by
  cases n with
  | zero => cases hstage
  | succ n =>
    obtain ⟨head, rest, hhead, hmount, hadmits, hrest, rfl⟩ :=
      (advances_after table r n).of_first hstage hfirst
    obtain ⟨left, hleft, rfl⟩ := exists_left_of_head hhead
    rw [arrival_after] at hrest
    rw [table_after] at hmount
    exact ⟨rest, left, hrest, hleft.succ ⟨_, _, hhead⟩, hmount, hadmits, rfl⟩

theorem exists_check_of_call (hstage : (after table r n).stage = .call place step q) :
    ∃ m, (after table r m).stage = .check place q := by
  cases n with
  | zero => cases hstage
  | succ n => exact ⟨n, (advances_after table r n).of_call hstage⟩

theorem exists_check_of_mem_log {entry : Entry} (hentry : entry ∈ (after table r n).log) :
    ∃ m place, (after table r m).stage = .check place entry.visit.request ∧
      place.position = entry.position ∧ place.index = entry.visit.step := by
  induction n with
  | zero => cases hentry
  | succ n ih =>
    rcases (advances_after table r n).log_eq with hlog | ⟨place, step, q, called, hlog, hstage⟩
    · rw [hlog] at hentry
      exact ih hentry
    · rw [hlog] at hentry
      rcases List.mem_append.mp hentry with hentry | hentry
      · exact ih hentry
      · rw [List.mem_singleton.mp hentry]
        rcases hstage with hcheck | hcall
        · exact ⟨n, place, hcheck, rfl, rfl⟩
        · obtain ⟨m, hcheck⟩ := exists_check_of_call hcall
          exact ⟨m, place, hcheck, rfl, rfl⟩

theorem exists_first_of_mem_visits {visit : Visit}
    (hvisit : (position, visit) ∈ (table.dispatch none r).visits) (hfirst : visit.step = 0) :
    ∃ n mount, (after table r n).stage = .check ⟨position, mount, 0⟩ visit.request := by
  obtain ⟨conclusion, hend⟩ :=
    exists_conclusion_after (r := r) (Nat.le_refl (3 * Table.points table + 1))
  rw [dispatch_of_conclusion? hend] at hvisit
  obtain ⟨entry, hentry, heq⟩ := List.mem_map.mp hvisit
  obtain ⟨rfl, rfl⟩ := Prod.mk.inj heq
  obtain ⟨m, ⟨_, mount, _⟩, hcheck, rfl, rfl⟩ := exists_check_of_mem_log hentry
  rw [← hfirst]
  exact ⟨m, mount, hcheck⟩

end Flight

/-! ## The URI on record -/

namespace Table

def Rerecords (table : Table) (call : Nat × Visit) : Prop :=
  ∃ mount step delay next, table[call.1]? = some mount ∧
    mount.chain.steps[call.2.step]? = some step ∧
    step.handler call.2.request = .settle delay (.ok (.pass next)) ∧
    next.arrivalUri ≠ call.2.request.arrivalUri

variable {table : Table} {r : Request}

theorem arrivalUri_of_mem_calls {call : Nat × Visit}
    (hcall : call ∈ (table.dispatch none r).calls) :
    call.2.request.arrivalUri = r.arrivalUri.or (some r.uri) ∨
      ∃ earlier ∈ (table.dispatch none r).calls, Earlier earlier call ∧
        table.Rerecords earlier := by
  exact part_of_mem_visits Request.arrivalUri (fun _ _ _ => rfl) (List.mem_filter.mp hcall).1

end Table

namespace Flight

/-- At the head of the loop the request has the URI it arrived with, so that a mount that admits it
also strips the URI kept aside. The first step at a mount sees the request as the last chain left
it, but for the URI, which follows from the URI that arrived and the mount's own path, and the mount
path. The URI on record is changed by handlers alone. -/
theorem dispatch_restores_uri (table : Table) (r : Request) :
    (∀ n position q, (after table r n).stage = .head position q →
      q.uri = r.uri ∧
        ∀ mount, table[position]? = some mount → mount.endpoint.admits q = true →
          ∃ rest,
            mount.endpoint.mountPath.strip? (after table r n).arrival.path = some rest) ∧
    (∀ position visit, (position, visit) ∈ (table.dispatch none r).visits → visit.step = 0 →
      ∃ n mount rest left, (after table r n).stage = .check ⟨position, mount, 0⟩ visit.request ∧
        mount.endpoint.mountPath.strip? r.uri.path = some rest ∧ Left table r n left ∧
        table[position]? = some mount ∧ mount.endpoint.admits { left with uri := r.uri } = true ∧
        visit.request = { left with
          uri := r.uri.below rest
          mountPath := some mount.endpoint.mountPath.text }) ∧
    (∀ call ∈ (table.dispatch none r).calls,
      call.2.request.arrivalUri = r.arrivalUri.or (some r.uri) ∨
        ∃ earlier ∈ (table.dispatch none r).calls, Earlier earlier call ∧
          table.Rerecords earlier) ∧
    ∃ n conclusion, (after table r n).conclusion? = some conclusion ∧
      table.dispatch none r =
        ⟨(after table r n).visits, (after table r n).time, conclusion⟩ := by
  refine ⟨fun n position q hstage => ?_, fun position visit hvisit hfirst => ?_,
    fun call hcall => Table.arrivalUri_of_mem_calls hcall, ?_⟩
  · have hwithin := (within_after table r n).stage
    rw [hstage, arrival_after] at hwithin
    refine ⟨hwithin.2, fun mount _ hadmits => ?_⟩
    obtain ⟨rest, hrest⟩ := Endpoint.exists_strip_of_admits hadmits
    rw [hwithin.2] at hrest
    rw [arrival_after]
    exact ⟨rest, hrest⟩
  · obtain ⟨n, mount, hstage⟩ := exists_first_of_mem_visits hvisit hfirst
    obtain ⟨rest, left, hrest⟩ := exists_left_of_first hstage rfl
    exact ⟨n, mount, rest, left, hstage, hrest⟩
  · obtain ⟨conclusion, hend⟩ :=
      exists_conclusion_after (r := r) (Nat.le_refl (3 * Table.points table + 1))
    exact ⟨_, conclusion, hend, dispatch_of_conclusion? hend⟩

end Flight
end ApiGateway
