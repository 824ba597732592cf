import ApiGateway.Proofs.Flight.Interleaving
import ApiGateway.Proofs.Gateway.History

/-! Reloads that overlap. A table and its configuration are stored one after the other, so that the
stores of two reloads can come between each other and leave the table of the one with the
configuration of the other. Where no table is stored between the two stores of another reload, the
configuration is that of the active table. -/

namespace ApiGateway

def Reload.isHalfway : Reload → Bool
  | .halfway _ => true
  | _ => false

namespace Traffic

def settled (t : Traffic) : Bool := t.reloads.all fun reload => !reload.isHalfway

/-- The reload of a number has stored its table and has a configuration yet to store. -/
def Halfway (t : Traffic) (number : Nat) (config : Config) : Prop :=
  t.reloads[number]? = some (.halfway config)

def storing? (t : Traffic) : Event → Option Config
  | .store number =>
    match t.reloads[number]? with
    | some (.built _ config) => some config
    | _ => none
  | _ => none

/-- No reload stores its table while another is halfway. -/
def exclusive (t : Traffic) : List Event → Bool
  | [] => true
  | event :: rest => ((t.storing? event).isNone || t.settled) && (t.step event).exclusive rest

variable {t : Traffic}

theorem getElem?_append_built (reloads : List Reload) (table : Table) (begun config : Config)
    (number : Nat) :
    (reloads ++ [.built table begun])[number]? = some (.halfway config) ↔
      reloads[number]? = some (.halfway config) := by
  rcases Nat.lt_or_ge number reloads.length with hlt | hge
  · rw [List.getElem?_append_left hlt]
  · rw [List.getElem?_append_right hge, List.getElem?_eq_none hge, List.getElem?_singleton]
    split <;> simp

theorem settled_iff :
    t.settled = true ↔ ∀ number config, ¬ t.Halfway number config := by
  rw [settled, List.all_eq_true]
  constructor
  · intro h number config hget
    simpa [Reload.isHalfway] using h _ (List.mem_of_getElem? hget)
  · intro h reload hreload
    obtain ⟨number, hget⟩ := List.mem_iff_getElem?.mp hreload
    cases reload with
    | halfway config => exact absurd hget (h number config)
    | _ => rfl

end Traffic

/-- Traffic with the configuration that the active table was built from. -/
structure Audit where
  traffic : Traffic
  origin : Config

namespace Audit

def start (gateway : Gateway) : Audit := ⟨.start gateway, gateway.config⟩

def step (a : Audit) (event : Event) : Audit :=
  ⟨a.traffic.step event, (a.traffic.storing? event).getD a.origin⟩

def run (a : Audit) (events : List Event) : Audit := events.foldl step a

inductive Effect (a : Audit) (event : Event) : Audit → Prop where
  | idle {passages : List Passage} (hstoring : a.traffic.storing? event = none) :
      Effect a event ⟨{ a.traffic with passages }, a.origin⟩
  | build {table : Table} {config : Config} (hstoring : a.traffic.storing? event = none)
      (hbuild : (Table.build a.traffic.gateway.registry config).result = .ok table) :
      Effect a event
        ⟨{ a.traffic with reloads := a.traffic.reloads ++ [.built table config] }, a.origin⟩
  | storeTable {number : Nat} {table : Table} {config : Config}
      (hstoring : a.traffic.storing? event = some config)
      (hreload : a.traffic.reloads[number]? = some (.built table config)) :
      Effect a event
        ⟨{ a.traffic with
            gateway := a.traffic.gateway.storeTable table
            reloads := a.traffic.reloads.set number (.halfway config) }, config⟩
  | storeConfig {number : Nat} {config : Config} (hstoring : a.traffic.storing? event = none)
      (hreload : a.traffic.reloads[number]? = some (.halfway config)) :
      Effect a event
        ⟨{ a.traffic with
            gateway := a.traffic.gateway.storeConfig config
            reloads := a.traffic.reloads.set number .complete }, a.origin⟩

theorem effect (a : Audit) (event : Event) : a.Effect event (a.step event) := by
  cases event with
  | arrive | proceed => exact .idle rfl
  | reload config =>
    simp only [step, Traffic.step, Traffic.beginReload]
    split
    next table hbuild => exact .build rfl hbuild
    next => exact .idle rfl
  | store number =>
    have hstoring : a.traffic.storing? (.store number) = match a.traffic.reloads[number]? with
      | some (.built _ config) => some config
      | _ => none := rfl
    simp only [step, Traffic.step, Traffic.store]
    cases hreload : a.traffic.reloads[number]? with
    | none =>
      rw [hreload] at hstoring
      rw [hstoring]
      exact .idle hstoring
    | some reload =>
      rw [hreload] at hstoring
      rw [hstoring]
      cases reload with
      | built table config => exact .storeTable hstoring hreload
      | halfway config => exact .storeConfig hstoring hreload
      | complete => exact .idle hstoring

theorem traffic_run (a : Audit) (events : List Event) :
    (a.run events).traffic = a.traffic.run events := by
  induction events generalizing a with
  | nil => rfl
  | cons event rest ih => exact ih (a.step event)

theorem run_append (a : Audit) (before after : List Event) :
    a.run (before ++ after) = (a.run before).run after := List.foldl_append

/-! ## The origin of the active table -/

structure Built (registry : Registry) (a : Audit) : Prop where
  registry_eq : a.traffic.gateway.registry = registry
  active : (Table.build registry a.origin).result = .ok a.traffic.gateway.table
  pending : ∀ table config, .built table config ∈ a.traffic.reloads →
    (Table.build registry config).result = .ok table

variable {registry : Registry} {a next : Audit} {event : Event} {events : List Event}

theorem Built.pending_set (h : a.Built registry) (number : Nat) {reload : Reload}
    (hreload : ∀ table config, reload ≠ .built table config) (table : Table) (config : Config)
    (hmem : .built table config ∈ a.traffic.reloads.set number reload) :
    (Table.build registry config).result = .ok table := by
  rcases List.mem_or_eq_of_mem_set hmem with hmem | heq
  · exact h.pending table config hmem
  · exact absurd heq.symm (hreload table config)

theorem Effect.built (heffect : a.Effect event next) (h : a.Built registry) :
    next.Built registry := by
  cases heffect with
  | idle => exact ⟨h.registry_eq, h.active, h.pending⟩
  | build _ hbuild =>
    refine ⟨h.registry_eq, h.active, fun table config hreload => ?_⟩
    rcases List.mem_append.mp hreload with hreload | hreload
    · exact h.pending table config hreload
    · obtain ⟨rfl, rfl⟩ := Reload.built.inj (List.mem_singleton.mp hreload)
      rwa [h.registry_eq] at hbuild
  | storeTable _ hreload =>
    exact ⟨h.registry_eq, h.pending _ _ (List.mem_of_getElem? hreload), h.pending_set _ nofun⟩
  | storeConfig => exact ⟨h.registry_eq, h.active, h.pending_set _ nofun⟩

theorem Built.run (h : a.Built registry) (events : List Event) : (a.run events).Built registry := by
  induction events generalizing a with
  | nil => exact h
  | cons event rest ih => exact ih ((a.effect event).built h)

/-! ## Where no store comes between -/

/-- The configuration is that of the active table, or one reload is halfway and will make it so. -/
def Agrees (a : Audit) : Prop :=
  a.traffic.settled = true ∧ a.traffic.gateway.config = a.origin ∨
    ∃ number, a.traffic.Halfway number a.origin ∧
      ∀ other config, a.traffic.Halfway other config → other = number

theorem Agrees.config_eq (h : a.Agrees) (hsettled : a.traffic.settled = true) :
    a.traffic.gateway.config = a.origin := by
  rcases h with ⟨_, heq⟩ | ⟨number, hhalfway, _⟩
  · exact heq
  · exact absurd hhalfway (Traffic.settled_iff.mp hsettled number a.origin)

theorem Effect.agrees_of_settled (heffect : a.Effect event next)
    (hstoring : (a.traffic.storing? event).isSome) (hsettled : a.traffic.settled = true) :
    next.Agrees := by
  cases heffect with
  | idle hnone | build hnone | storeConfig hnone => simp [hnone] at hstoring
  | @storeTable number table config _ hreload =>
    refine .inr ⟨number, ?_, fun other config hhalfway => ?_⟩
    · exact List.getElem?_set_self (List.getElem?_eq_some_iff.mp hreload).1
    · by_contra hne
      refine Traffic.settled_iff.mp hsettled other config ?_
      rwa [Traffic.Halfway, List.getElem?_set_ne (Ne.symm hne)] at hhalfway

theorem Effect.agrees (heffect : a.Effect event next) (h : a.Agrees)
    (hexclusive : (a.traffic.storing? event).isNone || a.traffic.settled) : next.Agrees := by
  cases heffect with
  | idle => exact h
  | build =>
    simp only [Agrees, Traffic.settled_iff, Traffic.Halfway, Traffic.getElem?_append_built] at h ⊢
    exact h
  | storeTable hstoring hreload =>
    have hsettled : a.traffic.settled = true := by simpa [hstoring] using hexclusive
    exact (Effect.storeTable hstoring hreload).agrees_of_settled (by simp [hstoring]) hsettled
  | @storeConfig number config _ hreload =>
    -- the reload that goes on is the one that was halfway
    rcases h with ⟨hsettled, _⟩ | ⟨halfway, hhalfway, hunique⟩
    · exact absurd hreload (Traffic.settled_iff.mp hsettled number config)
    · obtain rfl := hunique number config hreload
      obtain rfl := Reload.halfway.inj (Option.some.inj (hreload.symm.trans hhalfway))
      have hlt := (List.getElem?_eq_some_iff.mp hreload).1
      refine .inl ⟨Traffic.settled_iff.mpr fun other later hother => ?_, rfl⟩
      by_cases hne : number = other
      · subst hne
        rw [Traffic.Halfway, List.getElem?_set_self hlt] at hother
        cases hother
      · rw [Traffic.Halfway, List.getElem?_set_ne hne] at hother
        exact hne (hunique other later hother).symm

theorem Agrees.run (h : a.Agrees) (hexclusive : a.traffic.exclusive events = true) :
    (a.run events).Agrees := by
  induction events generalizing a with
  | nil => exact h
  | cons event rest ih =>
    obtain ⟨hfirst, hrest⟩ := Bool.and_eq_true_iff.mp hexclusive
    exact ih ((a.effect event).agrees h hfirst) hrest

theorem agrees_start (gateway : Gateway) : (start gateway).Agrees := .inl ⟨rfl, rfl⟩

/-- However the steps of any number of reloads are interleaved, the active table is that of the
configuration it was stored for. Once no reload is halfway, that is the configuration of the gateway
if no reload has stored its table while another was halfway; after other reloads it is enough that
since then one has stored its table and none has done so while another was halfway. -/
theorem config_describes_table {registry : Registry} {config : Config} {gateway : Gateway}
    (hload : (Gateway.load registry config).result = .ok gateway) (events : List Event) :
    let audit := (start gateway).run events
    audit.traffic = (Traffic.start gateway).run events ∧
      (Table.build registry audit.origin).result = .ok audit.traffic.gateway.table ∧
      ((Traffic.start gateway).exclusive events = true → audit.traffic.settled = true →
        audit.traffic.gateway.config = audit.origin) ∧
      ∀ before event after, events = before ++ event :: after →
        let earlier := (Traffic.start gateway).run before
        (earlier.storing? event).isSome → earlier.exclusive (event :: after) = true →
          audit.traffic.settled = true → audit.traffic.gateway.config = audit.origin := by
  intro audit
  have hcurrent := Gateway.current_of_load hload
  have hstart : (start gateway).Built registry :=
    ⟨hcurrent.registry_eq, by rw [start, hcurrent.config_eq]; exact hcurrent.built, nofun⟩
  refine ⟨traffic_run _ events, (hstart.run events).active, fun hexclusive hsettled => ?_, ?_⟩
  · exact ((agrees_start gateway).run hexclusive).config_eq hsettled
  · rintro before event after rfl earlier hstoring hexclusive hsettled
    have hearlier : ((start gateway).run before).traffic = earlier := traffic_run _ before
    obtain ⟨hfirst, hrest⟩ := Bool.and_eq_true_iff.mp hexclusive
    have hnone : earlier.settled = true := by
      simpa [Option.isNone_eq_false_iff.mpr hstoring] using hfirst
    rw [← hearlier] at hstoring hrest hnone
    have hagrees := (((start gateway).run before).effect event).agrees_of_settled hstoring hnone
    have haudit : audit = (((start gateway).run before).step event).run after := run_append _ _ _
    rw [haudit] at hsettled ⊢
    exact (hagrees.run hrest).config_eq hsettled

/-! Two reloads at once of a gateway that answers with what it was loaded with. -/

def inTurn : List Event :=
  [.reload (.catchAll "old"), .reload (.catchAll "new"), .store 0, .store 0, .store 1, .store 1]

def crossing : List Event :=
  [.reload (.catchAll "new"), .reload (.catchAll "old"), .store 0, .store 1, .store 1, .store 0]

def thirdReload : List Event := [.reload (.catchAll "old"), .store 2, .store 2]

theorem config_describes_table_in_turn :
    (Gateway.load .naming (.catchAll "old")).result = .ok Traffic.beforeReload ∧
      ((start Traffic.beforeReload).run inTurn).origin = .catchAll "new" ∧
      ((start Traffic.beforeReload).run inTurn).traffic.gateway.config = .catchAll "new" ∧
      (Traffic.start Traffic.beforeReload).exclusive (crossing ++ thirdReload) = false ∧
      ((start Traffic.beforeReload).run (crossing ++ thirdReload)).origin = .catchAll "old" ∧
      ((start Traffic.beforeReload).run (crossing ++ thirdReload)).traffic.gateway.config =
        .catchAll "old" := by
  have hload : (Gateway.load .naming (.catchAll "old")).result = .ok Traffic.beforeReload := rfl
  obtain ⟨_, _, hinTurn, _⟩ := config_describes_table hload inTurn
  obtain ⟨_, _, _, hlater⟩ := config_describes_table hload (crossing ++ thirdReload)
  exact ⟨hload, rfl, hinTurn rfl rfl, rfl, rfl,
    hlater (crossing ++ [.reload (.catchAll "old")]) (.store 2) [.store 2] rfl rfl rfl rfl⟩

/-- Where stores cross, the gateway ends up with the configuration of one reload and the table of
the other, and answers as the other says. -/
theorem config_departs_from_table :
    let audit := (start Traffic.beforeReload).run crossing
    (Gateway.load .naming (.catchAll "old")).result = .ok Traffic.beforeReload ∧
      (∀ reload ∈ audit.traffic.reloads, reload = .complete) ∧
      audit.traffic.gateway.config = .catchAll "new" ∧ audit.origin = .catchAll "old" ∧
      audit.traffic.gateway.config ≠ audit.origin ∧
      ∃ table, (Table.build .naming audit.traffic.gateway.config).result = .ok table ∧
        (table.dispatch none (.ofUri .root)).conclusion =
          .responded (.handled "new") (.ofText 200 "new") ∧
        (audit.traffic.gateway.table.dispatch none (.ofUri .root)).conclusion =
          .responded (.handled "old") (.ofText 200 "old") := by
  intro audit
  have hreloads : audit.traffic.reloads = [.complete, .complete] := rfl
  have hconfig : audit.traffic.gateway.config = .catchAll "new" := rfl
  refine ⟨rfl, ?_, hconfig, rfl, fun h => ?_, .naming "new", ?_, rfl, rfl⟩
  · rw [hreloads]
    simp
  · have hnames := congrArg (fun config : Config => config.pipelines.map (·.name)) h
    exact absurd hnames (by decide)
  · rw [hconfig]
    rfl

end Audit
end ApiGateway
