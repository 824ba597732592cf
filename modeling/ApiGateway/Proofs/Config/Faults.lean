import ApiGateway.Proofs.Config.Places
import ApiGateway.Proofs.Config.SocketAddress
import Mathlib.Data.List.Nodup

/-! What is wrong with a configuration. Each place in it has at most one thing wrong with it, and
the violations are what is wrong at every place, in document order. Of the pipelines ahead the
reports for one need no more than their names. -/

namespace ApiGateway

open Faults

inductive Pipeline.Faulty (earlier : List String) (p : Pipeline) (i : Nat) : Faults where
  | blankName (hblank : Text.isBlankText p.name = true) :
      Faulty earlier p i (.name i) (.emptyPipelineName i)
  | repeatedName (hblank : Text.isBlankText p.name = false) (hname : p.name ∈ earlier) :
      Faulty earlier p i (.name i) (.duplicatePipeline p.name)
  | blankAction {j s} (hs : p.processors[j]? = some s) (hblank : Text.isBlankText s.action = true) :
      Faulty earlier p i (.action i j) (.emptyActionName p.name j)
  | badPath {j e} (he : p.endpoints[j]? = some e) (hpath : e.path.toList.head? ≠ some '/') :
      Faulty earlier p i (.path i j) (.invalidEndpointPath p.name e.path)
  | blankHost {j e h} (he : p.endpoints[j]? = some e) (hhost : e.host = some h)
      (hblank : Text.isBlankText h = true) :
      Faulty earlier p i (.host i j) (.emptyEndpointHost p.name e.path)

structure Pipeline.WellFormed (earlier : List String) (p : Pipeline) : Prop where
  name : Text.isBlankText p.name = false
  fresh : p.name ∉ earlier
  action : ∀ s ∈ p.processors, Text.isBlankText s.action = false
  path : ∀ e ∈ p.endpoints, e.path.toList.head? = some '/'
  host : ∀ e ∈ p.endpoints, ∀ h ∈ e.host, Text.isBlankText h = false

inductive Config.Faulty (c : Config) : Faults where
  | pipeline {i} {p : Pipeline} {place error} (hp : c.pipelines[i]? = some p)
      (hfault : p.Faulty ((c.pipelines.take i).map Pipeline.name) i place error) :
      Faulty c place error
  | blankKey {tls} (htls : c.tls = some tls) (hblank : Text.isBlankText tls.key = true) :
      Faulty c .tlsKey (.emptyTlsPath "key")
  | blankCert {tls} (htls : c.tls = some tls) (hblank : Text.isBlankText tls.cert = true) :
      Faulty c .tlsCert (.emptyTlsPath "cert")
  | bindAddress (haddress : ¬ IsHostAndPort c.listener.bindAddress) :
      Faulty c .bindAddress (.invalidBindAddress c.listener.bindAddress)

structure Config.WellFormed (c : Config) : Prop where
  name : ∀ p ∈ c.pipelines, Text.isBlankText p.name = false
  distinct : (c.pipelines.map Pipeline.name).Nodup
  action : ∀ p ∈ c.pipelines, ∀ s ∈ p.processors, Text.isBlankText s.action = false
  path : ∀ p ∈ c.pipelines, ∀ e ∈ p.endpoints, e.path.toList.head? = some '/'
  host : ∀ p ∈ c.pipelines, ∀ e ∈ p.endpoints, ∀ h ∈ e.host, Text.isBlankText h = false
  tls : ∀ tls ∈ c.tls, Text.isBlankText tls.key = false ∧ Text.isBlankText tls.cert = false
  bindAddress : IsHostAndPort c.listener.bindAddress

namespace Pipeline

variable {seen earlier : List String} {p : Pipeline} {i j : Nat} {place place' : ConfigPlace}
  {error error' : ValidationError}

/-! ## Inside a pipeline -/

theorem processorViolations_eq (name : String) (index : Nat) (processors : List Processor) :
    processorViolations name index processors =
      (processors.zipIdx index).flatMap fun entry => entry.1.violations name entry.2 := by
  induction processors generalizing index with
  | nil => rfl
  | cons s processors ih =>
    rw [processorViolations, ih, List.zipIdx_cons, List.flatMap_cons]

theorem listedBy_processors (p : Pipeline) (i : Nat) :
    ListedBy (fun place error => ∃ j s, p.processors[j]? = some s ∧
        Text.isBlankText s.action = true ∧ place = .action i j ∧ error = .emptyActionName p.name j)
      (processorViolations p.name 0 p.processors) := by
  rw [processorViolations_eq]
  refine listedBy_zipIdx (fun (s : Processor) j => listedBy_ite (Text.isBlankText s.action = true)
    (.action i j) (.emptyActionName p.name j)) ?_
  rintro a b j k hlt _ _ _ _ ⟨-, rfl, -⟩ ⟨-, rfl, -⟩
  simp [List.cons_lt_cons_iff, hlt]

theorem listedBy_endpoint (name : String) (i j : Nat) (e : Endpoint) :
    ListedBy (fun place error =>
        (e.path.toList.head? ≠ some '/' ∧ place = .path i j ∧
          error = .invalidEndpointPath name e.path) ∨
        ∃ h, e.host = some h ∧ Text.isBlankText h = true ∧ place = .host i j ∧
          error = .emptyEndpointHost name e.path)
      (e.violations name) := by
  have hpath := listedBy_ite (¬ e.path.toList.head? = some '/') (.path i j)
    (.invalidEndpointPath name e.path)
  rw [ite_not] at hpath
  refine hpath.append ?_ ?_
  · cases hhost : e.host with
    | none => exact listedBy_nil nofun
    | some h =>
      refine (listedBy_ite (Text.isBlankText h = true) (.host i j)
        (.emptyEndpointHost name e.path)).congr fun place error => ?_
      simp only [Option.some.injEq, exists_eq_left']
  · rintro _ _ _ _ ⟨-, rfl, -⟩ ⟨_, -, -, rfl, -⟩
    simp [List.cons_lt_cons_iff]

theorem listedBy_endpoints (p : Pipeline) (i : Nat) :
    ListedBy (fun place error => ∃ j e, p.endpoints[j]? = some e ∧
        ((e.path.toList.head? ≠ some '/' ∧ place = .path i j ∧
          error = .invalidEndpointPath p.name e.path) ∨
        ∃ h, e.host = some h ∧ Text.isBlankText h = true ∧ place = .host i j ∧
          error = .emptyEndpointHost p.name e.path))
      (p.endpoints.flatMap (Endpoint.violations p.name)) := by
  have hpositions : p.endpoints.flatMap (Endpoint.violations p.name) =
      p.endpoints.zipIdx.flatMap fun entry => Endpoint.violations p.name entry.1 := by
    conv_lhs => rw [← List.zipIdx_map_fst 0 p.endpoints, List.flatMap_map]
  rw [hpositions]
  refine listedBy_zipIdx (fun e j => listedBy_endpoint p.name i j e) ?_
  rintro a b j k hlt _ _ _ _ (⟨-, rfl, -⟩ | ⟨_, -, -, rfl, -⟩) (⟨-, rfl, -⟩ | ⟨_, -, -, rfl, -⟩) <;>
    simp [List.cons_lt_cons_iff, hlt]

/-! ## Pipelines -/

theorem listedBy_name (hseen : ∀ name, name ∈ seen ↔ name ∈ earlier) (name : String) (i : Nat) :
    ListedBy (fun place error =>
        (Text.isBlankText name = true ∧ place = .name i ∧ error = .emptyPipelineName i) ∨
        ((Text.isBlankText name = false ∧ name ∈ earlier) ∧ place = .name i ∧
          error = .duplicatePipeline name))
      (nameViolations seen i name) := by
  have hname : nameViolations seen i name =
      (if Text.isBlankText name = true then [.emptyPipelineName i] else []) ++
        (if Text.isBlankText name = false ∧ name ∈ earlier then [.duplicatePipeline name]
          else []) := by
    unfold nameViolations
    cases Text.isBlankText name <;> simp [hseen]
  rw [hname]
  refine (listedBy_ite _ _ _).append (listedBy_ite _ _ _) ?_
  -- a name is not both blank and repeated
  rintro _ _ _ _ ⟨hblank, -⟩ ⟨⟨hnot, -⟩, -⟩
  rw [hblank] at hnot
  cases hnot

theorem listedBy_faulty (hseen : ∀ name, name ∈ seen ↔ name ∈ earlier) (p : Pipeline) (i : Nat) :
    (p.Faulty earlier i).ListedBy (nameViolations seen i p.name ++ p.contentViolations) := by
  have hcontent := (listedBy_processors p i).append (listedBy_endpoints p i) ?_
  · refine ((listedBy_name hseen p.name i).append hcontent ?_).congr fun place error => ?_
    · rintro _ _ _ _ (⟨-, rfl, -⟩ | ⟨-, rfl, -⟩) (⟨_, _, -, -, rfl, -⟩ |
        ⟨_, _, -, ⟨-, rfl, -⟩ | ⟨_, -, -, rfl, -⟩⟩) <;>
      simp [List.cons_lt_cons_iff]
    · constructor
      · rintro ((⟨hblank, rfl, rfl⟩ | ⟨⟨hblank, hname⟩, rfl, rfl⟩) |
          ⟨j, s, hs, hblank, rfl, rfl⟩ | ⟨j, e, he, ⟨hpath, rfl, rfl⟩ |
            ⟨h, hhost, hblank, rfl, rfl⟩⟩)
        · exact .blankName hblank
        · exact .repeatedName hblank hname
        · exact .blankAction hs hblank
        · exact .badPath he hpath
        · exact .blankHost he hhost hblank
      · intro hfault
        cases hfault with
        | blankName hblank => exact .inl (.inl ⟨hblank, rfl, rfl⟩)
        | repeatedName hblank hname => exact .inl (.inr ⟨⟨hblank, hname⟩, rfl, rfl⟩)
        | blankAction hs hblank => exact .inr (.inl ⟨_, _, hs, hblank, rfl, rfl⟩)
        | badPath he hpath => exact .inr (.inr ⟨_, _, he, .inl ⟨hpath, rfl, rfl⟩⟩)
        | blankHost he hhost hblank =>
          exact .inr (.inr ⟨_, _, he, .inr ⟨_, hhost, hblank, rfl, rfl⟩⟩)
  · rintro _ _ _ _ ⟨_, _, -, -, rfl, -⟩ ⟨_, _, -, ⟨-, rfl, -⟩ | ⟨_, -, -, rfl, -⟩⟩ <;>
    simp [List.cons_lt_cons_iff]

theorem wellFormed_iff :
    p.WellFormed earlier ↔ ∀ place error, ¬ p.Faulty earlier i place error := by
  constructor
  · intro h place error hfault
    cases hfault with
    | blankName hblank => exact absurd hblank (Bool.eq_false_iff.mp h.name)
    | repeatedName _ hname => exact h.fresh hname
    | blankAction hs hblank =>
      exact absurd hblank (Bool.eq_false_iff.mp (h.action _ (List.mem_of_getElem? hs)))
    | badPath he hpath => exact hpath (h.path _ (List.mem_of_getElem? he))
    | blankHost he hhost hblank =>
      exact absurd hblank (Bool.eq_false_iff.mp (h.host _ (List.mem_of_getElem? he) _ hhost))
  · intro h
    have hname : Text.isBlankText p.name = false :=
      Bool.eq_false_iff.mpr fun hblank => h _ _ (.blankName hblank)
    refine ⟨hname, fun hmem => h _ _ (.repeatedName hname hmem), fun s hs => ?_, fun e he => ?_,
      fun e he host hhost => ?_⟩
    · obtain ⟨j, hj⟩ := List.mem_iff_getElem?.mp hs
      exact Bool.eq_false_iff.mpr fun hblank => h _ _ (.blankAction hj hblank)
    · obtain ⟨j, hj⟩ := List.mem_iff_getElem?.mp he
      exact not_not.mp fun hpath => h _ _ (.badPath hj hpath)
    · obtain ⟨j, hj⟩ := List.mem_iff_getElem?.mp he
      exact Bool.eq_false_iff.mpr fun hblank => h _ _ (.blankHost hj hhost hblank)

theorem Faulty.rank_eq (h : p.Faulty earlier i place error) :
    ∃ tail, place.rank = 0 :: i :: tail := by
  cases h <;> exact ⟨_, rfl⟩

theorem Faulty.before (h : p.Faulty earlier i place error) {q : Pipeline} {others : List String}
    (h' : q.Faulty others j place' error') (hlt : i < j) : place.Before place' := by
  obtain ⟨tail, hrank⟩ := h.rank_eq
  obtain ⟨tail', hrank'⟩ := h'.rank_eq
  rw [ConfigPlace.Before, hrank, hrank']
  exact List.cons_lt_cons_iff.mpr (.inr ⟨rfl, List.cons_lt_cons_iff.mpr (.inl hlt)⟩)

theorem Faulty.before_of_rank (h : p.Faulty earlier i place error) {n : Nat} {tail : List Nat}
    (hrank : place'.rank = (n + 1) :: tail) : place.Before place' := by
  obtain ⟨_, hrank'⟩ := h.rank_eq
  rw [ConfigPlace.Before, hrank, hrank']
  exact List.cons_lt_cons_iff.mpr (.inl n.succ_pos)

theorem listedBy_violations (before rest : List Pipeline)
    (hseen : ∀ name, name ∈ seen ↔ name ∈ before.map Pipeline.name) :
    ListedBy (fun place error => ∃ (i : Nat) (p : Pipeline), rest[i]? = some p ∧
        p.Faulty ((before ++ rest.take i).map Pipeline.name) (before.length + i) place error)
      (violations seen before.length rest) := by
  -- the pipelines `before` have been checked, and `seen` has their names
  induction rest generalizing before seen with
  | nil => exact listedBy_nil fun _ _ ⟨_, _, hp, _⟩ => nomatch hp
  | cons p rest ih =>
    have hseen' : ∀ name, name ∈ p.name :: seen ↔ name ∈ (before ++ [p]).map Pipeline.name := by
      intro name
      rw [List.map_append, List.mem_append, List.mem_cons, hseen, List.map_singleton,
        List.mem_singleton, or_comm]
    have hfirst := listedBy_faulty hseen p before.length
    have hrest := ih (before ++ [p]) hseen'
    rw [List.length_append, List.length_singleton] at hrest
    refine (hfirst.append hrest ?_).congr fun place error => ?_
    · rintro _ _ _ _ hfault ⟨i, q, -, hfault'⟩
      exact hfault.before hfault' (by omega)
    · constructor
      · rintro (hfault | ⟨i, q, hq, hfault⟩)
        · exact ⟨0, p, rfl, by simpa using hfault⟩
        · refine ⟨i + 1, q, hq, ?_⟩
          rwa [List.take_succ_cons, List.append_cons, ← Nat.add_assoc, Nat.add_right_comm]
      · rintro ⟨i, q, hq, hfault⟩
        cases i with
        | zero =>
          obtain rfl := Option.some.inj hq
          exact .inl (by simpa using hfault)
        | succ i =>
          refine .inr ⟨i, q, hq, ?_⟩
          rwa [List.take_succ_cons, List.append_cons, ← Nat.add_assoc,
            Nat.add_right_comm] at hfault

example :
    violations [] 0
      [⟨"api", [⟨none, "echo", .null⟩], [⟨"/api", none⟩]⟩, ⟨"api", [], [⟨"api", none⟩]⟩,
        ⟨"", [⟨none, " ", .null⟩], [⟨"/", some ""⟩]⟩] =
      [.duplicatePipeline "api", .invalidEndpointPath "api" "api", .emptyPipelineName 2,
        .emptyActionName "" 0, .emptyEndpointHost "" "/"] := by
  decide

end Pipeline

namespace Config

variable {c : Config}

theorem listedBy_tls (tls : Option TlsFiles) :
    ListedBy (fun place error => ∃ files, tls = some files ∧
        ((Text.isBlankText files.key = true ∧ place = .tlsKey ∧ error = .emptyTlsPath "key") ∨
          (Text.isBlankText files.cert = true ∧ place = .tlsCert ∧ error = .emptyTlsPath "cert")))
      (tlsViolations tls) := by
  cases tls with
  | none => exact listedBy_nil nofun
  | some files =>
    refine ((listedBy_ite (Text.isBlankText files.key = true) .tlsKey
      (.emptyTlsPath "key")).append (listedBy_ite (Text.isBlankText files.cert = true) .tlsCert
        (.emptyTlsPath "cert")) ?_).congr fun place error => ?_
    · rintro _ _ _ _ ⟨-, rfl, -⟩ ⟨-, rfl, -⟩
      simp [List.cons_lt_cons_iff]
    · simp only [Option.some.injEq, exists_eq_left']

theorem listedBy_bindAddress (listener : Listener) :
    ListedBy (fun place error => ¬ IsHostAndPort listener.bindAddress ∧ place = .bindAddress ∧
        error = .invalidBindAddress listener.bindAddress) (bindViolations listener) := by
  have hbind := listedBy_ite (¬ isBindAddress listener.bindAddress = true) .bindAddress
    (.invalidBindAddress listener.bindAddress)
  rw [ite_not] at hbind
  exact hbind.congr fun place error => by rw [isBindAddress_iff]

theorem listedBy_faulty (c : Config) : c.Faulty.ListedBy c.violations := by
  have hpipelines := Pipeline.listedBy_violations [] c.pipelines fun _ => Iff.rfl
  have hinside := hpipelines.append (listedBy_tls c.tls) ?_
  · refine (hinside.append (listedBy_bindAddress c.listener) ?_).congr fun place error => ?_
    · rintro _ _ _ _ (⟨i, p, -, hfault⟩ | ⟨files, -, ⟨-, rfl, -⟩ | ⟨-, rfl, -⟩⟩) ⟨-, rfl, -⟩
      · exact hfault.before_of_rank rfl
      · simp [List.cons_lt_cons_iff]
      · simp [List.cons_lt_cons_iff]
    · constructor
      · rintro ((⟨i, p, hp, hfault⟩ | ⟨files, hfiles, ⟨hblank, rfl, rfl⟩ | ⟨hblank, rfl, rfl⟩⟩) |
          ⟨haddress, rfl, rfl⟩)
        · rw [List.length_nil, Nat.zero_add] at hfault
          exact .pipeline hp hfault
        · exact .blankKey hfiles hblank
        · exact .blankCert hfiles hblank
        · exact .bindAddress haddress
      · intro hfault
        cases hfault with
        | @pipeline i p _ _ hp hfault =>
          refine .inl (.inl ⟨i, p, hp, ?_⟩)
          rwa [List.length_nil, Nat.zero_add]
        | blankKey hfiles hblank => exact .inl (.inr ⟨_, hfiles, .inl ⟨hblank, rfl, rfl⟩⟩)
        | blankCert hfiles hblank => exact .inl (.inr ⟨_, hfiles, .inr ⟨hblank, rfl, rfl⟩⟩)
        | bindAddress haddress => exact .inr ⟨haddress, rfl, rfl⟩
  · rintro _ _ _ _ ⟨i, p, -, hfault⟩ ⟨files, -, ⟨-, rfl, -⟩ | ⟨-, rfl, -⟩⟩
    · exact hfault.before_of_rank rfl
    · exact hfault.before_of_rank rfl

/-! ## Well-formedness -/

theorem nodup_iff_not_mem_take {names : List String} :
    names.Nodup ↔ ∀ i name, names[i]? = some name → name ∉ names.take i := by
  rw [List.nodup_iff_getElem?_ne_getElem?]
  constructor
  · intro h i name hname hmem
    obtain ⟨j, hj⟩ := List.mem_iff_getElem?.mp hmem
    rw [List.getElem?_take, Option.ite_none_right_eq_some] at hj
    obtain ⟨hlt, hj⟩ := hj
    exact h j i hlt (List.getElem?_eq_some_iff.mp hname).1 (hj.trans hname.symm)
  · intro h i j hlt hj heq
    have hname := List.getElem?_eq_getElem hj
    refine h j names[j] hname (List.mem_iff_getElem?.mpr ⟨i, ?_⟩)
    rw [List.getElem?_take_of_lt hlt, heq, hname]

theorem WellFormed.inside (h : c.WellFormed) {i : Nat} {p : Pipeline}
    (hp : c.pipelines[i]? = some p) : p.WellFormed ((c.pipelines.take i).map Pipeline.name) := by
  have hmem := List.mem_of_getElem? hp
  refine ⟨h.name p hmem, ?_, h.action p hmem, h.path p hmem, h.host p hmem⟩
  rw [List.map_take]
  refine nodup_iff_not_mem_take.mp h.distinct i p.name ?_
  rw [List.getElem?_map, hp, Option.map_some]

theorem wellFormed_iff : c.WellFormed ↔ ∀ place error, ¬ c.Faulty place error := by
  constructor
  · intro h place error hfault
    cases hfault with
    | pipeline hp hfault => exact Pipeline.wellFormed_iff.mp (h.inside hp) _ _ hfault
    | blankKey htls hblank => exact absurd hblank (Bool.eq_false_iff.mp (h.tls _ htls).1)
    | blankCert htls hblank => exact absurd hblank (Bool.eq_false_iff.mp (h.tls _ htls).2)
    | bindAddress haddress => exact haddress h.bindAddress
  · intro h
    have hinside : ∀ {i} {p : Pipeline}, c.pipelines[i]? = some p →
        p.WellFormed ((c.pipelines.take i).map Pipeline.name) := fun hp =>
      Pipeline.wellFormed_iff.mpr fun place error hfault => h place error (.pipeline hp hfault)
    have hmember : ∀ p ∈ c.pipelines, ∃ earlier, p.WellFormed earlier := by
      intro p hp
      obtain ⟨i, hi⟩ := List.mem_iff_getElem?.mp hp
      exact ⟨_, hinside hi⟩
    refine ⟨fun p hp => ?_, nodup_iff_not_mem_take.mpr fun i name hi => ?_, fun p hp => ?_,
      fun p hp => ?_, fun p hp => ?_, fun files hfiles => ⟨?_, ?_⟩, ?_⟩
    · exact (hmember p hp).choose_spec.name
    · rw [List.getElem?_map, Option.map_eq_some_iff] at hi
      obtain ⟨p, hp, rfl⟩ := hi
      rw [← List.map_take]
      exact (hinside hp).fresh
    · exact (hmember p hp).choose_spec.action
    · exact (hmember p hp).choose_spec.path
    · exact (hmember p hp).choose_spec.host
    · exact Bool.eq_false_iff.mpr fun hblank => h _ _ (.blankKey hfiles hblank)
    · exact Bool.eq_false_iff.mpr fun hblank => h _ _ (.blankCert hfiles hblank)
    · exact not_not.mp fun haddress => h _ _ (.bindAddress haddress)

theorem violations_eq_nil_iff : c.violations = [] ↔ c.WellFormed := by
  rw [(listedBy_faulty c).eq_nil_iff, wellFormed_iff]

end Config
end ApiGateway
