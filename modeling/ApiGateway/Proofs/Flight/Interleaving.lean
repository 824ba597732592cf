import ApiGateway.Gateway.Basic
import ApiGateway.Proofs.Flight.Outcome
import Mathlib.Data.List.Induction

/-! Requests in flight and reloads, their steps in any order. Each request has the table of its
snapshot to itself, so that only its own steps count for it. -/

namespace ApiGateway

inductive Passage where
  | arrived (r : Request)
  | flying (flight : Flight)

/-- A reload with its table built: nothing stored yet, the table stored, or both stored. -/
inductive Reload where
  | built (table : Table) (config : Config)
  | halfway (config : Config)
  | complete

structure Traffic where
  gateway : Gateway
  passages : List Passage
  reloads : List Reload

/-- One step of one of the parties: a request arrives, the request of a number goes on, a reload
builds its table, the reload of a number goes on. -/
inductive Event where
  | arrive (r : Request)
  | proceed (number : Nat)
  | reload (config : Config)
  | store (number : Nat)

def Passage.proceed (table : Table) : Passage → Passage
  | .arrived r => .flying (.start table r)
  | .flying flight => .flying flight.advance

def Event.isStepOf (number : Nat) : Event → Bool
  | .proceed other => other == number
  | _ => false

namespace Traffic

def start (gateway : Gateway) : Traffic := ⟨gateway, [], []⟩

def beginReload (t : Traffic) (config : Config) : Traffic :=
  match (Table.build t.gateway.registry config).result with
  | .ok table => { t with reloads := t.reloads ++ [.built table config] }
  | .error _ => t

def store (t : Traffic) (number : Nat) : Traffic :=
  match t.reloads[number]? with
  | some (.built table config) =>
    { t with
      gateway := t.gateway.storeTable table
      reloads := t.reloads.set number (.halfway config) }
  | some (.halfway config) =>
    { t with
      gateway := t.gateway.storeConfig config
      reloads := t.reloads.set number .complete }
  | _ => t

def step (t : Traffic) : Event → Traffic
  | .arrive r => { t with passages := t.passages ++ [.arrived r] }
  | .proceed number =>
    { t with passages := t.passages.modify number (.proceed t.gateway.table) }
  | .reload config => t.beginReload config
  | .store number => t.store number

def run (t : Traffic) (events : List Event) : Traffic := events.foldl step t

variable {t : Traffic} {event : Event} {events : List Event} {number : Nat} {flight : Flight}
  {r : Request}

theorem run_concat (t : Traffic) (events : List Event) (event : Event) :
    t.run (events ++ [event]) = (t.run events).step event := by
  rw [run, List.foldl_append]
  rfl

theorem passages_beginReload (t : Traffic) (config : Config) :
    (t.beginReload config).passages = t.passages := by
  unfold beginReload
  split <;> rfl

theorem passages_store (t : Traffic) (number : Nat) : (t.store number).passages = t.passages := by
  unfold store
  split <;> rfl

theorem eq_proceed_of_isStepOf (h : event.isStepOf number = true) : event = .proceed number := by
  cases event with
  | proceed other => rw [of_decide_eq_true h]
  | _ => cases h

theorem getElem?_passages_proceed (t : Traffic) (number : Nat) :
    (t.step (.proceed number)).passages[number]? =
      (t.passages[number]?).map (.proceed t.gateway.table) := by
  simp only [step, List.getElem?_modify, if_true]
  rfl

theorem flying_of_not_isStepOf (h : event.isStepOf number = false)
    (hflying : (t.step event).passages[number]? = some (.flying flight)) :
    t.passages[number]? = some (.flying flight) := by
  cases event with
  | proceed other =>
    have hne : other ≠ number := of_decide_eq_false h
    simp only [step, List.getElem?_modify, if_neg hne] at hflying
    simpa using hflying
  | reload config => rwa [step, passages_beginReload] at hflying
  | store other => rwa [step, passages_store] at hflying
  | arrive r =>
    simp only [step] at hflying
    rcases Nat.lt_or_ge number t.passages.length with hlt | hge
    · rwa [List.getElem?_append_left hlt] at hflying
    · rw [List.getElem?_append_right hge, List.getElem?_singleton] at hflying
      split at hflying <;> cases hflying

theorem exists_snapshot (gateway : Gateway)
    (hflying : ((start gateway).run events).passages[number]? = some (.flying flight)) :
    ∃ before after r, events = before ++ .proceed number :: after ∧
      ((start gateway).run before).passages[number]? = some (.arrived r) ∧
      flight = Flight.after ((start gateway).run before).gateway.table r
        (after.countP (Event.isStepOf number)) := by
  -- the last event is a step of the request's own, or leaves it as it is
  induction events using List.reverseRecOn generalizing flight with
  | nil => cases hflying
  | append_singleton events event ih =>
    rw [run_concat] at hflying
    cases hown : event.isStepOf number with
    | false =>
      obtain ⟨before, after, r, rfl, harrived, rfl⟩ := ih (flying_of_not_isStepOf hown hflying)
      refine ⟨before, after ++ [event], r, by simp, harrived, ?_⟩
      simp [List.countP_append, hown]
    | true =>
      obtain rfl := eq_proceed_of_isStepOf hown
      rw [getElem?_passages_proceed] at hflying
      obtain ⟨passage, hpassage, hproceed⟩ := Option.map_eq_some_iff.mp hflying
      cases passage with
      | arrived r =>
        obtain rfl := Passage.flying.inj hproceed
        exact ⟨events, [], r, rfl, hpassage, rfl⟩
      | flying earlier =>
        obtain rfl := Passage.flying.inj hproceed
        obtain ⟨before, after, r, rfl, harrived, rfl⟩ := ih hpassage
        refine ⟨before, after ++ [.proceed number], r, by simp, harrived, ?_⟩
        rw [← Flight.after_succ]
        simp [List.countP_append, hown]

/-- However the steps of requests and reloads are interleaved, a request walks the table that was
active at its snapshot and no other: what it has done is what the dispatch on that table does, up to
where it is, and at its end it is the whole of it. It does come to its end, given enough steps,
unless a handler never settles. -/
theorem in_flight_on_snapshot (gateway : Gateway) (events : List Event) (number : Nat)
    (flight : Flight)
    (hflying : ((start gateway).run events).passages[number]? = some (.flying flight)) :
    ∃ before after r, events = before ++ .proceed number :: after ∧
      ((start gateway).run before).passages[number]? = some (.arrived r) ∧
      flight.table = ((start gateway).run before).gateway.table ∧ flight.Within ∧
      flight.calls <+: (flight.table.dispatch none r).calls ∧
      (∀ conclusion, flight.conclusion? = some conclusion →
        flight.table.dispatch none r = ⟨flight.visits, flight.time, conclusion⟩ ∧
          (flight.table.dispatch none r).calls = flight.calls) ∧
      (3 * Table.points flight.table + 1 ≤ after.countP (Event.isStepOf number) →
        ∃ conclusion, flight.conclusion? = some conclusion) := by
  obtain ⟨before, after, r, hevents, harrived, rfl⟩ := exists_snapshot gateway hflying
  refine ⟨before, after, r, hevents, harrived, ?_⟩
  rw [Flight.table_after]
  refine ⟨rfl, Flight.within_after _ r _, (Flight.visits_prefix _ r _).filter _, ?_,
    Flight.exists_conclusion_after⟩
  intro conclusion hend
  have hdispatch := Flight.dispatch_of_conclusion? hend
  exact ⟨hdispatch, by rw [hdispatch]; rfl⟩

end Traffic

/-! A request on its way when a reload stores another table. -/

def Config.catchAll (action : String) : Config :=
  { Config.default with pipelines := [⟨action, [⟨none, action, .null⟩], [⟨"/", none⟩]⟩] }

def Handler.naming (action : String) : Handler := fun _ => .answer (.ofText 200 action)

def Registry.naming : Registry :=
  ((Registry.empty.register "old" fun _ _ => .ok (.naming "old")).2.register "new"
    fun _ _ => .ok (.naming "new")).2

def Table.naming (action : String) : Table :=
  [⟨⟨"/", none⟩, action, [⟨action, .always, .naming action⟩]⟩]

namespace Traffic

def overtaking : List Event :=
  [.arrive (.ofUri .root), .proceed 0, .proceed 0, .proceed 0, .proceed 0,
    .reload (.catchAll "new"), .store 0, .arrive (.ofUri .root), .proceed 1, .store 0, .proceed 0]

def beforeReload : Gateway := ⟨.naming, .catchAll "old", .naming "old", .plain⟩

theorem overtaken_ends_on_snapshot :
    ((start beforeReload).run overtaking).gateway.table = .naming "new" ∧
      ((start beforeReload).run overtaking).passages[0]? =
        some (.flying (.after (.naming "old") (.ofUri .root) 4)) ∧
      ∃ r, (Table.naming "old").dispatch none r =
        ⟨(Flight.after (.naming "old") (.ofUri .root) 4).visits, 0,
          .responded (.handled "old") (.ofText 200 "old")⟩ := by
  have hflying : ((start beforeReload).run overtaking).passages[0]? =
      some (.flying (.after (.naming "old") (.ofUri .root) 4)) := rfl
  obtain ⟨_, _, r, _, _, _, _, _, hend, _⟩ :=
    in_flight_on_snapshot beforeReload overtaking 0 _ hflying
  exact ⟨rfl, hflying, r, (hend _ rfl).1⟩

end Traffic
end ApiGateway
