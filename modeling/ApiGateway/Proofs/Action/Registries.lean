import ApiGateway.Action.Registry
import ApiGateway.Proofs.Text.Encoding
import Mathlib.Data.List.Induction

/-! Registries side by side. In whatever order constructors are registered and registries copied,
under each name that constructor is in force in a registry which was registered there last or, as
long as none was, which was in force in the original when it was copied. All that a registry tells
agrees with this. -/

namespace ApiGateway

abbrev Registries := List Registry

namespace Registries

inductive Query where
  | lookup (name : String)
  | contains (name : String)
  | names
  | size
  | isEmpty

inductive Operation where
  | create
  | clone (source : Nat)
  | register (place : Nat) (name : String) (constructor : Constructor)
  | ask (place : Nat) (query : Query)

def Operation.place? : Operation → Option Nat
  | .create => none
  | .clone place | .register place _ _ | .ask place _ => some place

inductive Answer where
  | absent
  | place (number : Nat)
  | found (constructor : Option Constructor)
  | truth (holds : Bool)
  | names (names : List String)
  | size (count : Nat)

def Query.answer (registry : Registry) : Query → Answer
  | .lookup name => .found (registry.lookup name)
  | .contains name => .truth (registry.contains name)
  | .names => .names registry.names
  | .size => .size registry.size
  | .isEmpty => .truth registry.isEmpty

def onPlace (registries : Registries) (place : Nat) (result : Registry → Answer × Registries) :
    Answer × Registries :=
  match registries[place]? with
  | some registry => result registry
  | none => (.absent, registries)

def perform (registries : Registries) : Operation → Answer × Registries
  | .create => (.place registries.length, registries ++ [.empty])
  | .clone source =>
    registries.onPlace source fun registry =>
      (.place registries.length, registries ++ [registry])
  | .register place name constructor =>
    registries.onPlace place fun registry =>
      let (replaced, registry) := registry.register name constructor
      (.found replaced, registries.set place registry)
  | .ask place query =>
    registries.onPlace place fun registry => (query.answer registry, registries)

def run (registries : Registries) (operations : List Operation) : Registries :=
  operations.foldl (fun registries operation => (registries.perform operation).2) registries

def answer (operations : List Operation) (operation : Operation) : Answer :=
  ((run [] operations).perform operation).1

/-- The constructor in force under a name, in the registry at a place. -/
inductive InForce (name : String) (constructor : Constructor) :
    List Operation → Nat → Prop where
  | own {operations before after place}
      (hoperations : operations = before ++ .register place name constructor :: after)
      (hplace : place < (run [] before).length)
      (hlast : ∀ later, .register place name later ∉ after) :
      InForce name constructor operations place
  | copied {operations before after source place}
      (hoperations : operations = before ++ .clone source :: after)
      (hplace : answer before (.clone source) = .place place)
      (hsource : InForce name constructor before source)
      (hnone : ∀ own, .register place name own ∉ after) :
      InForce name constructor operations place

/-- The registry at a place tells what is in force in it, and the answers it gives agree with each
other. Only a registration on it changes it. -/
structure KeepsLast (operations : List Operation) (place : Nat) : Prop where
  lookup : ∀ name, ∃ found, answer operations (.ask place (.lookup name)) = .found found ∧
    ∀ constructor, found = some constructor ↔ InForce name constructor operations place
  register : ∀ name constructor,
    answer operations (.register place name constructor) =
      answer operations (.ask place (.lookup name))
  contains : ∀ name, ∃ found, answer operations (.ask place (.lookup name)) = .found found ∧
    answer operations (.ask place (.contains name)) = .truth found.isSome
  names : ∃ names, answer operations (.ask place .names) = .names names ∧
    names.Pairwise (fun a b => Text.encodeUtf8 a < Text.encodeUtf8 b) ∧
    (∀ name, name ∈ names ↔ answer operations (.ask place (.contains name)) = .truth true) ∧
    answer operations (.ask place .size) = .size names.length ∧
    ∃ empty, answer operations (.ask place .isEmpty) = .truth empty ∧
      (empty = true ↔ names.length = 0)
  unchanged : ∀ operation, (∀ name constructor, operation ≠ .register place name constructor) →
    (run [] (operations ++ [operation]))[place]? = (run [] operations)[place]?

inductive Effect (registries : Registries) : Operation → Answer → Registries → Prop where
  | absent {operation place} (hplace : operation.place? = some place)
      (hnone : registries[place]? = none) : Effect registries operation .absent registries
  | create : Effect registries .create (.place registries.length) (registries ++ [.empty])
  | clone {source registry} (hsource : registries[source]? = some registry) :
      Effect registries (.clone source) (.place registries.length) (registries ++ [registry])
  | register {place name constructor registry} (hplace : registries[place]? = some registry) :
      Effect registries (.register place name constructor) (.found (registry.lookup name))
        (registries.set place (registry.register name constructor).2)
  | ask {place query registry} (hplace : registries[place]? = some registry) :
      Effect registries (.ask place query) (query.answer registry) registries

inductive Origin (registries : Registries) (place : Nat) : Operation → Registry → Prop where
  | kept {operation registry} (hplace : registries[place]? = some registry)
      (hother : ∀ name constructor, operation ≠ .register place name constructor) :
      Origin registries place operation registry
  | created (hplace : place = registries.length) : Origin registries place .create .empty
  | copied {source registry} (hplace : place = registries.length)
      (hsource : registries[source]? = some registry) :
      Origin registries place (.clone source) registry
  | registered {name constructor registry} (hplace : registries[place]? = some registry) :
      Origin registries place (.register place name constructor)
        (registry.register name constructor).2

variable {registries : Registries} {registry : Registry} {place : Nat} {name : String}
  {constructor : Constructor} {operation : Operation} {operations before after : List Operation}
  {result : Answer} {next : Registries} {source : Nat}

theorem run_append (registries : Registries) (before after : List Operation) :
    registries.run (before ++ after) = (registries.run before).run after := List.foldl_append

theorem run_concat (registries : Registries) (operations : List Operation)
    (operation : Operation) :
    registries.run (operations ++ [operation]) =
      ((registries.run operations).perform operation).2 := run_append _ _ _

theorem getElem?_concat_eq_some {next : Registry} :
    (registries ++ [next])[place]? = some registry ↔
      registries[place]? = some registry ∨ place = registries.length ∧ registry = next := by
  rcases Nat.lt_trichotomy place registries.length with hlt | rfl | hgt
  · rw [List.getElem?_append_left hlt]
    exact ⟨.inl, fun h => h.resolve_right fun h => Nat.ne_of_lt hlt h.1⟩
  · rw [List.getElem?_concat_length, List.getElem?_eq_none (Nat.le_refl _)]
    simp [eq_comm]
  · rw [List.getElem?_eq_none (Nat.le_of_lt hgt),
      List.getElem?_eq_none (by rw [List.length_append]; exact hgt)]
    simp [Nat.ne_of_gt hgt]

/-! ## One operation -/

theorem effect_onPlace {result : Registry → Answer × Registries}
    (hplace : operation.place? = some place)
    (h : ∀ registry, registries[place]? = some registry →
      registries.Effect operation (result registry).1 (result registry).2) :
    registries.Effect operation (registries.onPlace place result).1
      (registries.onPlace place result).2 := by
  unfold onPlace
  split
  next registry hsome => exact h registry hsome
  next hnone => exact .absent hplace hnone

theorem effect (registries : Registries) (operation : Operation) :
    registries.Effect operation (registries.perform operation).1
      (registries.perform operation).2 := by
  cases operation with
  | create => exact .create
  | clone => exact effect_onPlace rfl fun _ => .clone
  | register => exact effect_onPlace rfl fun _ => .register
  | ask => exact effect_onPlace rfl fun _ => .ask

theorem Effect.origin (h : registries.Effect operation result next)
    (hplace : next[place]? = some registry) : registries.Origin place operation registry := by
  cases h with
  | absent hother hnone =>
    refine .kept hplace ?_
    rintro _ _ rfl
    obtain rfl := Option.some.inj hother
    cases hnone.symm.trans hplace
  | create =>
    rcases getElem?_concat_eq_some.mp hplace with hplace | ⟨hlast, rfl⟩
    · exact .kept hplace nofun
    · exact .created hlast
  | clone hsource =>
    rcases getElem?_concat_eq_some.mp hplace with hplace | ⟨hlast, rfl⟩
    · exact .kept hplace nofun
    · exact .copied hlast hsource
  | @register other name constructor earlier hother =>
    rw [List.getElem?_set] at hplace
    split at hplace
    next heq =>
      subst heq
      split at hplace
      next =>
        obtain rfl := Option.some.inj hplace
        exact .registered hother
      next => cases hplace
    next hne =>
      refine .kept hplace ?_
      rintro _ _ ⟨⟩
      exact hne rfl
  | ask => exact .kept hplace nofun

theorem Effect.getElem?_eq (h : registries.Effect operation result next)
    (hplace : place < registries.length)
    (hother : ∀ name constructor, operation ≠ .register place name constructor) :
    next[place]? = registries[place]? := by
  cases h with
  | absent | ask => rfl
  | create | clone => exact List.getElem?_append_left hplace
  | register =>
    refine List.getElem?_set_ne ?_
    rintro rfl
    exact hother _ _ rfl

theorem Effect.length_le (h : registries.Effect operation result next) :
    registries.length ≤ next.length := by
  cases h with
  | absent | ask => exact Nat.le_refl _
  | create | clone => rw [List.length_append]; exact Nat.le_add_right _ _
  | register => exact Nat.le_of_eq (List.length_set ..).symm

theorem Effect.clone_place (h : registries.Effect (.clone source) (.place place) next) :
    place = registries.length ∧ place < next.length := by
  cases h with
  | clone => exact ⟨rfl, by rw [List.length_append]; exact Nat.lt_succ_self _⟩

theorem length_le_run (registries : Registries) (operations : List Operation) :
    registries.length ≤ (registries.run operations).length := by
  induction operations generalizing registries with
  | nil => exact Nat.le_refl _
  | cons operation operations ih =>
    exact Nat.le_trans (effect registries operation).length_le (ih _)

theorem effect_run (operations : List Operation) (operation : Operation) :
    (run [] operations).Effect operation (answer operations operation)
      (run [] (operations ++ [operation])) := by
  rw [run_concat]
  exact effect _ _

theorem place_of_answer_clone (h : answer operations (.clone source) = .place place) :
    place = (run [] operations).length ∧
      place < (run [] (operations ++ [.clone source])).length := by
  have hcopy := effect_run operations (.clone source)
  rw [h] at hcopy
  exact hcopy.clone_place

/-! ## What is in force -/

theorem InForce.lt_length (h : InForce name constructor operations place) :
    place < (run [] operations).length := by
  cases h with
  | own hoperations hplace =>
    rw [hoperations, run_append]
    exact Nat.lt_of_lt_of_le hplace (length_le_run _ _)
  | copied hoperations hplace =>
    rw [hoperations, List.append_cons, run_append]
    exact Nat.lt_of_lt_of_le (place_of_answer_clone hplace).2 (length_le_run _ _)

theorem forall_notMem_concat :
    (∀ later, .register place name later ∉ after ++ [operation]) ↔
      (∀ later, .register place name later ∉ after) ∧
        ∀ later, operation ≠ .register place name later := by
  simp only [List.mem_append, List.mem_singleton, not_or, forall_and, ne_eq, eq_comm]

theorem eq_or_of_concat_eq {first : Operation}
    (h : operations ++ [operation] = before ++ first :: after) :
    operations = before ∧ operation = first ∧ after = [] ∨
      ∃ rest, operations = before ++ first :: rest ∧ after = rest ++ [operation] := by
  rcases after.eq_nil_or_concat with rfl | ⟨rest, last, rfl⟩
  · obtain ⟨rfl, hlast⟩ := List.append_inj' h rfl
    exact .inl ⟨rfl, List.singleton_inj.mp hlast, rfl⟩
  · rw [List.concat_eq_append, ← List.cons_append, ← List.append_assoc] at h
    obtain ⟨hrest, hlast⟩ := List.append_inj' h rfl
    rw [List.concat_eq_append, List.singleton_inj.mp hlast]
    exact .inr ⟨rest, hrest, rfl⟩

theorem inForce_concat_iff :
    InForce name constructor (operations ++ [operation]) place ↔
      (operation = .register place name constructor ∧ place < (run [] operations).length) ∨
      (∃ source, operation = .clone source ∧ answer operations operation = .place place ∧
        InForce name constructor operations source) ∨
      (InForce name constructor operations place ∧
        ∀ later, operation ≠ .register place name later) := by
  constructor
  · intro h
    cases h with
    | own hoperations hplace hlast =>
      rcases eq_or_of_concat_eq hoperations with ⟨rfl, rfl, rfl⟩ | ⟨rest, hrest, rfl⟩
      · exact .inl ⟨rfl, hplace⟩
      · obtain ⟨hlast, hother⟩ := forall_notMem_concat.mp hlast
        exact .inr (.inr ⟨.own hrest hplace hlast, hother⟩)
    | copied hoperations hplace hsource hnone =>
      rcases eq_or_of_concat_eq hoperations with ⟨rfl, rfl, rfl⟩ | ⟨rest, hrest, rfl⟩
      · exact .inr (.inl ⟨_, rfl, hplace, hsource⟩)
      · obtain ⟨hnone, hother⟩ := forall_notMem_concat.mp hnone
        exact .inr (.inr ⟨.copied hrest hplace hsource hnone, hother⟩)
  · rintro (⟨rfl, hplace⟩ | ⟨source, rfl, hplace, hsource⟩ | ⟨h, hother⟩)
    · exact .own rfl hplace nofun
    · exact .copied rfl hplace hsource nofun
    · cases h with
      | own hoperations hplace hlast =>
        refine .own ?_ hplace (forall_notMem_concat.mpr ⟨hlast, hother⟩)
        rw [hoperations, List.append_assoc, List.cons_append]
      | copied hoperations hplace hsource hnone =>
        refine .copied ?_ hplace hsource (forall_notMem_concat.mpr ⟨hnone, hother⟩)
        rw [hoperations, List.append_assoc, List.cons_append]

theorem not_inForce_length : ¬ InForce name constructor operations (run [] operations).length :=
  fun h => Nat.lt_irrefl _ h.lt_length

theorem inForce_kept_iff (hplace : place < (run [] operations).length)
    (hother : ∀ name constructor, operation ≠ .register place name constructor) :
    InForce name constructor (operations ++ [operation]) place ↔
      InForce name constructor operations place := by
  rw [inForce_concat_iff]
  refine ⟨?_, fun h => .inr (.inr ⟨h, hother name⟩)⟩
  rintro (⟨hregister, -⟩ | ⟨source, rfl, hcopy, -⟩ | ⟨h, -⟩)
  · exact absurd hregister (hother name constructor)
  · exact absurd (place_of_answer_clone hcopy).1 (Nat.ne_of_lt hplace)
  · exact h

theorem not_inForce_created :
    ¬ InForce name constructor (operations ++ [.create]) (run [] operations).length := by
  rw [inForce_concat_iff]
  rintro (⟨⟨⟩, -⟩ | ⟨_, ⟨⟩, -⟩ | ⟨h, -⟩)
  exact not_inForce_length h

theorem inForce_copied_iff (hsource : (run [] operations)[source]? = some registry) :
    InForce name constructor (operations ++ [.clone source]) (run [] operations).length ↔
      InForce name constructor operations source := by
  have hcopy : answer operations (.clone source) = .place (run [] operations).length := by
    rw [answer, perform, onPlace, hsource]
  rw [inForce_concat_iff]
  refine ⟨?_, fun h => .inr (.inl ⟨source, rfl, hcopy, h⟩)⟩
  rintro (⟨⟨⟩, -⟩ | ⟨_, ⟨⟩, -, h⟩ | ⟨h, -⟩)
  · exact h
  · exact absurd h not_inForce_length

theorem inForce_registered_iff {other : String} {registered : Constructor}
    (hplace : place < (run [] operations).length) :
    InForce name constructor (operations ++ [.register place other registered]) place ↔
      if name = other then registered = constructor
      else InForce name constructor operations place := by
  rw [inForce_concat_iff]
  split
  next heq =>
    subst heq
    refine ⟨?_, fun h => .inl ⟨h ▸ rfl, hplace⟩⟩
    rintro (⟨⟨⟩, -⟩ | ⟨_, ⟨⟩, -⟩ | ⟨-, hlast⟩)
    · rfl
    · exact absurd rfl (hlast registered)
  next hne =>
    refine ⟨?_, fun h => .inr (.inr ⟨h, ?_⟩)⟩
    · rintro (⟨⟨⟩, -⟩ | ⟨_, ⟨⟩, -⟩ | ⟨h, -⟩)
      · exact absurd rfl hne
      · exact h
    · rintro _ ⟨⟩
      exact hne rfl

/-! ## Runs -/

theorem ordered_run (h : (run [] operations)[place]? = some registry) :
    registry.constructors.Ordered := by
  induction operations using List.reverseRecOn generalizing place registry with
  | nil => cases h
  | append_singleton operations operation ih =>
    cases (effect_run _ _).origin h with
    | kept hplace => exact ih hplace
    | created => exact .nil
    | copied _ hsource => exact ih hsource
    | registered hplace => exact (ih hplace).insert _ _

theorem lookup_run (h : (run [] operations)[place]? = some registry) :
    registry.lookup name = some constructor ↔ InForce name constructor operations place := by
  -- what is in force changes with the registry, whichever way that came to be at its place
  induction operations using List.reverseRecOn generalizing place registry with
  | nil => cases h
  | append_singleton operations operation ih =>
    cases (effect_run _ _).origin h with
    | kept hplace hother =>
      obtain ⟨hlt, -⟩ := List.getElem_of_getElem? hplace
      rw [inForce_kept_iff hlt hother]
      exact ih hplace
    | created hplace =>
      rw [hplace]
      exact iff_of_false nofun not_inForce_created
    | copied hplace hsource =>
      rw [hplace, inForce_copied_iff hsource]
      exact ih hsource
    | registered hplace =>
      obtain ⟨hlt, -⟩ := List.getElem_of_getElem? hplace
      rw [inForce_registered_iff hlt, Registry.lookup_register]
      split
      · exact Option.some_inj
      · exact ih hplace

theorem pairwise_names_run (h : (run [] operations)[place]? = some registry) :
    registry.names.Pairwise fun a b => Text.encodeUtf8 a < Text.encodeUtf8 b := by
  rw [Registry.names, Dict.keys, List.pairwise_map]
  exact (ordered_run h).imp Text.encodeUtf8_lt_iff.mpr

theorem answer_ask (h : (run [] operations)[place]? = some registry) (query : Query) :
    answer operations (.ask place query) = query.answer registry := by
  rw [answer, perform, onPlace, h]

theorem answer_register (h : (run [] operations)[place]? = some registry) (name : String)
    (constructor : Constructor) :
    answer operations (.register place name constructor) = .found (registry.lookup name) := by
  rw [answer, perform, onPlace, h]
  rfl

/-- After any operations on any number of registries, each keeps the constructor registered last
under every name, its own or that of the registry it was copied from. -/
theorem run_keeps_last (operations : List Operation) (place : Nat)
    (hplace : place < (run [] operations).length) : KeepsLast operations place := by
  have hregistry : (run [] operations)[place]? = some (run [] operations)[place] :=
    List.getElem?_eq_getElem hplace
  generalize (run [] operations)[place] = registry at hregistry
  have hlookup (name : String) :
      answer operations (.ask place (.lookup name)) = .found (registry.lookup name) :=
    answer_ask hregistry _
  have hcontains (name : String) :
      answer operations (.ask place (.contains name)) = .truth (registry.contains name) :=
    answer_ask hregistry _
  have hsize : answer operations (.ask place .size) = .size registry.names.length := by
    rw [Registry.length_names]
    exact answer_ask hregistry _
  constructor
  · exact fun name => ⟨_, hlookup name, fun _ => lookup_run hregistry⟩
  · intro name constructor
    rw [hlookup, answer_register hregistry]
  · exact fun name => ⟨_, hlookup name, hcontains name⟩
  · refine ⟨_, answer_ask hregistry _, pairwise_names_run hregistry, fun name => ?_, hsize, _,
      answer_ask hregistry _, ?_⟩
    · rw [hcontains, Answer.truth.injEq]
      exact Registry.mem_names
    · rw [Registry.length_names]
      exact Registry.isEmpty_iff
  · exact fun _ => (effect_run _ _).getElem?_eq hplace

/-- A copy keeps the constructor that is replaced in the original afterwards, and its own. -/
theorem run_keeps_last_copied :
    let first : Constructor := fun _ _ => .error "first"
    let second : Constructor := fun _ _ => .error "second"
    let operations : List Operation := [.create, .register 0 "b" first, .clone 0,
      .register 0 "b" second, .register 1 "a" second]
    1 < (run [] operations).length ∧ KeepsLast operations 1 ∧
      answer operations (.ask 1 (.lookup "b")) = .found (some first) ∧
      InForce "b" first operations 1 ∧
      answer operations (.ask 0 (.lookup "b")) = .found (some second) ∧
      answer operations (.ask 1 .names) = .names ["a", "b"] := by
  intro first second operations
  have hplace : 1 < (run [] operations).length := by decide
  have hkeeps : KeepsLast operations 1 := run_keeps_last operations 1 hplace
  have hlookup : answer operations (.ask 1 (.lookup "b")) = .found (some first) := rfl
  obtain ⟨found, hfound, hforce⟩ := hkeeps.lookup "b"
  obtain rfl := Answer.found.inj (hlookup.symm.trans hfound)
  exact ⟨hplace, hkeeps, hlookup, (hforce first).mp rfl, rfl, rfl⟩

end Registries
end ApiGateway
