import ApiGateway.Proofs.Chain.Compile
import ApiGateway.Proofs.Chain.Run

/-! A pipeline cut in two. Mounted one after the other at the endpoint of the whole, the halves do
what the whole does: the request that the first half leaves enters the second as it was left, if its
handlers changed nothing by which mounts are told apart. -/

namespace ApiGateway

/-! ## What does not depend on numbers and names -/

def Visit.unplaced (visit : Visit) : Visit := { visit with step := 0 }

def Run.unplaced (run : Run) : Run := { run with visits := run.visits.map Visit.unplaced }

def Verdict.unnamed : Verdict → Verdict
  | .handled _ => .handled ""
  | .failed _ e => .failed "" e
  | .unmatched => .unmatched

def Conclusion.unnamed : Conclusion → Conclusion
  | .responded verdict response => .responded verdict.unnamed response
  | conclusion => conclusion

/-- The dispatch without the numbers of mounts and steps and without the name of a pipeline. -/
def Dispatch.unplaced (d : Dispatch) : Dispatch where
  visits := d.visits.map fun visit => (0, visit.2.unplaced)
  time := d.time
  conclusion := d.conclusion.unnamed

variable {deadline : Option Nat} {position position' time : Nat} {uri : Uri} {r left : Request}
  {name first second : String} {rest rest' : Table} {front back steps : List Step}

theorem Run.unplaced_shifted (count : Nat) (run : Run) :
    (run.shifted count).unplaced = run.unplaced := by
  simp only [unplaced, shifted, List.map_map]
  rfl

theorem unplaced_runSteps (deadline : Option Nat) (position position' : Nat) (steps : List Step)
    (r : Request) (time : Nat) :
    (runSteps deadline position steps r time).unplaced =
      (runSteps deadline position' steps r time).unplaced := by
  have hzero : ∀ count, (runSteps deadline count steps r time).unplaced =
      (runSteps deadline 0 steps r time).unplaced := by
    intro count
    rw [← Nat.zero_add count, runSteps_shifted, Run.unplaced_shifted]
  rw [hzero position, hzero position']

theorem Dispatch.unplaced_preceded (seen : List (Nat × Visit)) (d : Dispatch) :
    (d.preceded seen).unplaced =
      d.unplaced.preceded (seen.map fun visit => (0, visit.2.unplaced)) := by
  simp only [Dispatch.unplaced, Dispatch.preceded, List.map_append]

theorem Run.unplaced_conclude {run run' : Run} (hrun : run.unplaced = run'.unplaced)
    (hrest : ∀ left, run.ending = .unhandled left →
      (rest.dispatchFrom deadline (position + 1) { left with uri } run.time).unplaced =
        (rest'.dispatchFrom deadline (position' + 1) { left with uri } run.time).unplaced) :
    (run.conclude deadline uri position first rest).unplaced =
      (run'.conclude deadline uri position' second rest').unplaced := by
  obtain ⟨visits, time, ending⟩ := run
  obtain ⟨visits', time', ending'⟩ := run'
  obtain ⟨hvisits, rfl, rfl⟩ := Run.mk.inj hrun
  have hseen : (visits.map (position, ·)).map (fun visit => (0, visit.2.unplaced)) =
      (visits'.map (position', ·)).map fun visit => (0, visit.2.unplaced) := by
    have hpaired := congrArg (List.map fun visit : Visit => ((0 : Nat), visit)) hvisits
    simpa only [List.map_map, Function.comp_def] using hpaired
  cases ending with
  | unhandled left =>
    change ((rest.dispatchFrom deadline (position + 1) { left with uri } time).preceded _).unplaced =
      ((rest'.dispatchFrom deadline (position' + 1) { left with uri } time).preceded _).unplaced
    rw [Dispatch.unplaced_preceded, Dispatch.unplaced_preceded, hseen, hrest left rfl]
  | _ => simp only [Run.conclude, Dispatch.ofRun, Dispatch.unplaced, hseen, Conclusion.unnamed,
      Verdict.unnamed]

namespace Table

theorem unplaced_dispatchFrom_cons (mount : Mount)
    (hrest : ∀ q time, (rest.dispatchFrom deadline (position + 1) q time).unplaced =
      (rest'.dispatchFrom deadline (position' + 1) q time).unplaced) (r : Request) (time : Nat) :
    (dispatchFrom deadline position (mount :: rest) r time).unplaced =
      (dispatchFrom deadline position' (mount :: rest') r time).unplaced := by
  cases hadmits : mount.endpoint.admits r with
  | false =>
    rw [dispatchFrom_cons_of_not_admits _ _ _ hadmits,
      dispatchFrom_cons_of_not_admits _ _ _ hadmits]
    exact hrest r time
  | true =>
    obtain ⟨relative, hrelative⟩ := Endpoint.exists_strip_of_admits hadmits
    rw [dispatchFrom_cons_of_admits _ _ _ hadmits hrelative,
      dispatchFrom_cons_of_admits _ _ _ hadmits hrelative]
    exact Run.unplaced_conclude rfl fun _ _ => hrest _ _

theorem unplaced_dispatchFrom_append (before : Table)
    (hrest : ∀ position position' q time,
      (rest.dispatchFrom deadline position q time).unplaced =
        (rest'.dispatchFrom deadline position' q time).unplaced)
    (position position' : Nat) (r : Request) (time : Nat) :
    (dispatchFrom deadline position (before ++ rest) r time).unplaced =
      (dispatchFrom deadline position' (before ++ rest') r time).unplaced := by
  induction before generalizing position position' r time with
  | nil => exact hrest position position' r time
  | cons mount before ih => exact unplaced_dispatchFrom_cons mount (ih _ _) r time

theorem unplaced_dispatchFrom (deadline : Option Nat) (table : Table) (position position' : Nat)
    (r : Request) (time : Nat) :
    (table.dispatchFrom deadline position r time).unplaced =
      (table.dispatchFrom deadline position' r time).unplaced := by
  rw [← List.append_nil table]
  exact unplaced_dispatchFrom_append table (fun _ _ _ _ => rfl) position position' r time

end Table

/-! ## Handlers that leave a request where it is -/

/-- Two requests that no mount tells apart and that were given out by the same one. -/
structure Request.SamePlace (q r : Request) : Prop where
  uri_eq : q.uri = r.uri
  host_eq : q.headers.get? .host = r.headers.get? .host
  mountPath_eq : q.mountPath = r.mountPath

/-- The handler of a step leaves URI, host header and mount path as it found them. -/
def Step.Stays (step : Step) : Prop :=
  ∀ r delay next, step.handler r = .settle delay (.ok (.pass next)) → next.SamePlace r

theorem Request.SamePlace.rfl {r : Request} : r.SamePlace r := ⟨Eq.refl _, Eq.refl _, Eq.refl _⟩

theorem Request.SamePlace.trans {p q r : Request} (h : p.SamePlace q) (h' : q.SamePlace r) :
    p.SamePlace r :=
  ⟨h.uri_eq.trans h'.uri_eq, h.host_eq.trans h'.host_eq, h.mountPath_eq.trans h'.mountPath_eq⟩

theorem Step.Stays.turn {step : Step} (h : step.Stays) {next : Request} {finish : Nat}
    (hturn : step.turn deadline r time = .on next finish) : next.SamePlace r := by
  unfold Step.turn at hturn
  split at hturn
  · cases hturn
  · cases hturn
    exact .rfl
  · split at hturn
    · cases hturn
    next delay result hhandler =>
      split at hturn
      · cases hturn
      · match result with
        | .ok (.pass _) =>
          cases hturn
          exact h _ _ _ hhandler
        | .ok (.answer _) | .error (.error _) | .error .panic => cases hturn

theorem samePlace_of_unhandled (hstays : ∀ step ∈ steps, step.Stays)
    (hend : (runSteps deadline position steps r time).ending = .unhandled left) :
    left.SamePlace r := by
  induction steps generalizing position r time with
  | nil =>
    cases hend
    exact .rfl
  | cons step steps ih =>
    obtain ⟨hstep, hsteps⟩ := List.forall_mem_cons.mp hstays
    rw [runSteps_cons] at hend
    cases hturn : step.turn deadline r time with
    | on next finish =>
      rw [hturn] at hend
      exact (ih hsteps hend).trans (hstep.turn hturn)
    | stop finish ending =>
      rw [hturn] at hend
      cases hend
      exact absurd hturn (step.turn_ne_unhandled _ _ _ _ _)

theorem Endpoint.admits_congr (endpoint : Endpoint) {q r : Request} (huri : q.uri = r.uri)
    (hhost : q.headers.get? .host = r.headers.get? .host) :
    endpoint.admits q = endpoint.admits r := by
  simp only [Endpoint.admits, Endpoint.admitsPath, isForHost, Request.host?, huri, hhost]

theorem Request.SamePlace.enter {mount : MountPath} {relative : String}
    (h : left.SamePlace (r.enter mount relative)) :
    { left with uri := r.uri }.enter mount relative = left := by
  obtain ⟨huri, _, hmountPath⟩ := h
  obtain ⟨m, leftUri, headers, fields, body, arrivalUri, leftPath⟩ := left
  obtain rfl : leftUri = r.uri.below relative := huri
  obtain rfl : leftPath = some mount.text := hmountPath
  rfl

/-! ## The cut -/

theorem Run.conclude_andThen {run : Run} (next : Request → Nat → Run)
    (hend : run.ending = .unhandled left) :
    (run.andThen next).conclude deadline uri position name rest =
      ((next left run.time).conclude deadline uri position name rest).preceded
        (run.visits.map (position, ·)) := by
  simp only [Run.andThen, hend]
  obtain ⟨visits, time, ending⟩ := next left run.time
  cases ending <;> simp only [Run.conclude, Dispatch.ofRun, Dispatch.after, Dispatch.preceded,
    List.map_append, List.append_assoc]

theorem Run.conclude_of_unhandled {run : Run} (hend : run.ending = .unhandled left) :
    run.conclude deadline uri position name rest =
      (rest.dispatchFrom deadline (position + 1) { left with uri } run.time).preceded
        (run.visits.map (position, ·)) := by
  simp only [Run.conclude, hend]
  rfl

theorem Table.unplaced_dispatchFrom_split (endpoint : Endpoint)
    (hstays : ∀ step ∈ front, step.Stays) (position position' : Nat) (r : Request) (time : Nat) :
    (dispatchFrom deadline position (⟨endpoint, ⟨name, front ++ back⟩⟩ :: rest) r time).unplaced =
      (dispatchFrom deadline position'
        (⟨endpoint, ⟨first, front⟩⟩ :: ⟨endpoint, ⟨second, back⟩⟩ :: rest) r time).unplaced := by
  cases hadmits : endpoint.admits r with
  | false =>
    have hpass (position : Nat) (chain : Chain) (rest : Table) :
        dispatchFrom deadline position (⟨endpoint, chain⟩ :: rest) r time =
          dispatchFrom deadline (position + 1) rest r time :=
      dispatchFrom_cons_of_not_admits _ _ _ hadmits
    rw [hpass, hpass, hpass]
    exact unplaced_dispatchFrom _ _ _ _ _ _
  | true =>
    obtain ⟨relative, hrelative⟩ := Endpoint.exists_strip_of_admits hadmits
    have henter {q : Request} (hq : endpoint.admits q = true) (huri : q.uri = r.uri)
        (position : Nat) (chain : Chain) (rest : Table) (time : Nat) :
        dispatchFrom deadline position (⟨endpoint, chain⟩ :: rest) q time =
          (chain.run deadline (q.enter endpoint.mountPath relative) time).conclude deadline q.uri
            position chain.pipeline rest :=
      dispatchFrom_cons_of_admits _ _ _ hq (huri ▸ hrelative)
    rw [henter hadmits rfl, henter hadmits rfl]
    simp only [Chain.run, runSteps_append]
    set run := runSteps deadline 0 front (r.enter endpoint.mountPath relative) time with hrun
    by_cases hend : ∃ left, run.ending = .unhandled left
    · obtain ⟨left, hend⟩ := hend
      have hplace := samePlace_of_unhandled hstays (hrun ▸ hend)
      have hhost : left.headers.get? .host = r.headers.get? .host := hplace.host_eq
      have hagain : endpoint.admits { left with uri := r.uri } = true := by
        rw [← hadmits]
        exact endpoint.admits_congr rfl hhost
      rw [Run.conclude_andThen _ hend, Run.conclude_of_unhandled hend,
        henter hagain rfl, hplace.enter, Dispatch.unplaced_preceded, Dispatch.unplaced_preceded]
      congr 1
      · simp only [List.map_map, Function.comp_def]
      · exact Run.unplaced_conclude (unplaced_runSteps _ _ _ _ _ _)
          fun _ _ => unplaced_dispatchFrom _ _ _ _ _ _
    · -- the second half never begins
      have hended (left : Request) : run.ending ≠ .unhandled left := fun h => hend ⟨left, h⟩
      rw [Run.andThen_of_ne _ hended]
      exact Run.unplaced_conclude rfl fun left h => absurd h (hended left)

theorem Dispatch.calls_unplaced (d : Dispatch) :
    d.unplaced.calls = d.calls.map fun call => (0, call.2.unplaced) := by
  simp only [Dispatch.calls, Dispatch.unplaced, List.filter_map]
  rfl

theorem Pipeline.makes_append {registry : Registry} {config : Config} {endpoints : List Endpoint}
    {ps qs : List Processor} {whole : Chain} :
    (⟨name, ps ++ qs, endpoints⟩ : Pipeline).Makes registry config whole ↔
      ∃ a b, (⟨first, ps, endpoints⟩ : Pipeline).Makes registry config a ∧
        (⟨second, qs, endpoints⟩ : Pipeline).Makes registry config b ∧
        whole = ⟨name, a.steps ++ b.steps⟩ := by
  constructor
  · obtain ⟨pipeline, steps⟩ := whole
    rintro ⟨rfl, hsteps : List.Forall₂ _ (ps ++ qs) steps⟩
    have hfront := List.forall₂_take ps.length hsteps
    have hback := List.forall₂_drop ps.length hsteps
    rw [List.take_left] at hfront
    rw [List.drop_left] at hback
    refine ⟨⟨first, steps.take ps.length⟩, ⟨second, steps.drop ps.length⟩, ⟨rfl, hfront⟩,
      ⟨rfl, hback⟩, ?_⟩
    rw [List.take_append_drop]
  · rintro ⟨a, b, ha, hb, rfl⟩
    exact ⟨rfl, List.rel_append ha.steps hb.steps⟩

/-- A pipeline compiles exactly when both parts of it do, wherever it is cut, and to the steps of
the one followed by those of the other. Mounted one after the other at the endpoint of the whole, at
any place in a table, the parts answer every request as the whole does, at the same time and after
the same visits and calls, the names of the pipelines and the numbers of the steps aside; for this
the handlers of the first part have to leave the URI, the host header and the mount path of a
request as they find them. -/
theorem Pipeline.split_transparent (registry : Registry) (config : Config)
    (name first second : String) (ps qs : List Processor) (endpoint : Endpoint) :
    (∀ whole,
      ((⟨name, ps ++ qs, [endpoint]⟩ : Pipeline).compile registry config).result = .ok whole ↔
        ∃ a b, ((⟨first, ps, [endpoint]⟩ : Pipeline).compile registry config).result = .ok a ∧
          ((⟨second, qs, [endpoint]⟩ : Pipeline).compile registry config).result = .ok b ∧
          whole = ⟨name, a.steps ++ b.steps⟩) ∧
    ∀ (a b : Chain) (before after : Table) (deadline : Option Nat) (r : Request),
      (∀ step ∈ a.steps, step.Stays) →
        let whole := Table.dispatch
          (before ++ (Table.ofChain ⟨name, a.steps ++ b.steps⟩ [endpoint] ++ after)) deadline r
        let split := Table.dispatch
          (before ++ (Table.ofChain a [endpoint] ++ Table.ofChain b [endpoint] ++ after)) deadline r
        split.conclusion.unnamed = whole.conclusion.unnamed ∧ split.time = whole.time ∧
          (split.visits.map fun visit => visit.2.unplaced) =
            (whole.visits.map fun visit => visit.2.unplaced) ∧
          (split.calls.map fun call => call.2.unplaced) =
            (whole.calls.map fun call => call.2.unplaced) := by
  refine ⟨fun whole => ?_, fun a b before after deadline r hstays => ?_⟩
  · simp only [result_compile_eq_ok]
    exact makes_append
  · intro whole split
    have hsplit : split.unplaced = whole.unplaced :=
      (Table.unplaced_dispatchFrom_append before
        (Table.unplaced_dispatchFrom_split endpoint hstays) 0 0 _ 0).symm
    have htime : split.time = whole.time := congrArg (fun d => d.time) hsplit
    have hcalls := congrArg (fun d => d.calls.map (·.2)) hsplit
    have hvisits := congrArg (fun d => d.visits.map (·.2)) hsplit
    simp only [Dispatch.calls_unplaced, List.map_map] at hcalls
    simp only [Dispatch.unplaced, List.map_map] at hvisits
    exact ⟨congrArg Dispatch.conclusion hsplit, htime, hvisits, hcalls⟩

/-! A first part that leaves a field for the condition of the second. -/

def Chain.tagging : Chain :=
  ⟨"tagging", [⟨"tag", .always, fun r => .pass (r.setField "tenant" "acme")⟩]⟩

def Chain.serving : Chain :=
  ⟨"serving", [⟨"serve", .equals (.context "tenant") "acme", fun _ => .answer (.ofText 200 "acme")⟩]⟩

def Endpoint.api : Endpoint := ⟨"/api", none⟩

theorem Chain.stays_tagging : ∀ step ∈ Chain.tagging.steps, step.Stays := by
  intro step hstep r delay next hpass
  obtain rfl := List.mem_singleton.mp hstep
  cases hpass
  exact ⟨rfl, rfl, rfl⟩

theorem Pipeline.split_transparent_tagging :
    (∀ step ∈ Chain.tagging.steps, step.Stays) ∧
      ((Table.ofChain .tagging [.api] ++ Table.ofChain .serving [.api]).dispatch none
          (.ofUri ⟨none, none, "/API/x", none⟩)).conclusion.unnamed =
        .responded (.handled "") (.ofText 200 "acme") := by
  have hsplit := (split_transparent .empty .default "whole" "tagging" "serving" [] [] .api).2
    .tagging .serving [] [] none (.ofUri ⟨none, none, ⟨"/API/x", none⟩⟩) Chain.stays_tagging
  exact ⟨Chain.stays_tagging, hsplit.1.trans rfl⟩

end ApiGateway
