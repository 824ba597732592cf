import ApiGateway.Config.Reader
import ApiGateway.Proofs.Document.Record

/-! What every configuration that was read holds: a timeout of 64 bits, and free values in the form
in which readers give them. -/

namespace ApiGateway

open Document

def Processor.free (p : Processor) : List Json := p.condition.toList ++ [p.params]

theorem Processor.forall_mem_free {p : Processor} {P : Json → Prop} :
    (∀ v ∈ p.free, P v) ↔ (∀ v, p.condition = some v → P v) ∧ P p.params := by
  simp [free, or_imp, forall_and]

def Config.processors (c : Config) : List Processor := c.pipelines.flatMap (·.processors)

variable {surplus : Surplus} {doc : Document}

theorem kept_of_readFree {v : Json} (hdoc : doc.InRange) (h : readFree surplus doc = .ok v) :
    v.Everywhere Json.IsKept :=
  Json.everywhere_isKept_of_toJson (fun _ _ => Json.everywhere_isKept_of_parseEmbedded) hdoc v h

theorem Processor.kept_of_read {p : Processor} (hdoc : doc.InRange)
    (h : (record surplus).read surplus doc = .ok p) :
    ∀ v ∈ p.free, v.Everywhere Json.IsKept := by
  refine Record.read_keeps hdoc (P := fun p => ∀ v ∈ p.free, v.Everywhere Json.IsKept)
    (List.forall_mem_singleton.mpr trivial) (List.forall_mem_cons.mpr ⟨?_,
      List.forall_mem_cons.mpr ⟨?_, List.forall_mem_singleton.mpr ?_⟩⟩) h
  · intro doc hdoc p next hp hstore
    obtain ⟨condition, hcondition, rfl⟩ := store_of_eq_ok.mp hstore
    rw [forall_mem_free] at hp ⊢
    refine ⟨fun v hv => ?_, hp.2⟩
    rcases readOptional_eq_ok hcondition with rfl | ⟨free, hfree, rfl⟩
    · cases hv
    · exact Option.some.inj hv ▸ kept_of_readFree hdoc hfree
  · intro doc hdoc p next hp hstore
    obtain ⟨action, _, rfl⟩ := store_of_eq_ok.mp hstore
    exact hp
  · intro doc hdoc p next hp hstore
    obtain ⟨params, hparams, rfl⟩ := store_of_eq_ok.mp hstore
    rw [forall_mem_free] at hp ⊢
    exact ⟨hp.1, kept_of_readFree hdoc hparams⟩

theorem Pipeline.kept_of_read {pipeline : Pipeline} (hdoc : doc.InRange)
    (h : (record surplus).read surplus doc = .ok pipeline) :
    ∀ p ∈ pipeline.processors, ∀ v ∈ p.free, v.Everywhere Json.IsKept := by
  refine Record.read_keeps hdoc
    (P := fun pipeline => ∀ p ∈ pipeline.processors, ∀ v ∈ p.free, v.Everywhere Json.IsKept)
    (List.forall_mem_nil _) (List.forall_mem_cons.mpr ⟨?_,
      List.forall_mem_cons.mpr ⟨?_, List.forall_mem_singleton.mpr ?_⟩⟩) h
  · intro doc hdoc pipeline next hkept hstore
    obtain ⟨name, _, rfl⟩ := store_of_eq_ok.mp hstore
    exact hkept
  · intro doc hdoc pipeline next _ hstore p hp
    obtain ⟨processors, hprocessors, rfl⟩ := store_of_eq_ok.mp hstore
    obtain ⟨d, hd, hread⟩ := forall_of_readSequence hdoc hprocessors p hp
    exact Processor.kept_of_read hd hread
  · intro doc hdoc pipeline next hkept hstore
    obtain ⟨endpoints, _, rfl⟩ := store_of_eq_ok.mp hstore
    exact hkept

theorem Timeouts.kept_of_read {t : Timeouts} (hdoc : doc.InRange)
    (h : record.read surplus doc = .ok t) : Number.fits t.requestSecs = true := by
  refine @Record.read_keeps _ record surplus t (fun t => Number.fits t.requestSecs = true) doc hdoc
    ?_ ?_ h
  · simp [record, Timeouts.default, Number.fits]
  · refine List.forall_mem_singleton.mpr fun doc hdoc t next _ hstore => ?_
    obtain ⟨seconds, hseconds, rfl⟩ := store_of_eq_ok.mp hstore
    exact fits_of_readUnsigned hdoc hseconds

namespace Config

structure Kept (c : Config) : Prop where
  seconds : Number.fits c.timeouts.requestSecs = true
  free : ∀ p ∈ c.processors, ∀ v ∈ p.free, v.Everywhere Json.IsKept

theorem kept_of_read {c : Config} (hdoc : doc.InRange)
    (h : (record surplus).read surplus doc = .ok c) : c.Kept := by
  refine Record.read_keeps hdoc (P := Kept)
    ⟨by simp [record, default, Timeouts.default, Number.fits], List.forall_mem_nil _⟩
    (List.forall_mem_cons.mpr ⟨?_, List.forall_mem_cons.mpr ⟨?_, List.forall_mem_cons.mpr ⟨?_,
      List.forall_mem_cons.mpr ⟨?_, List.forall_mem_singleton.mpr ?_⟩⟩⟩⟩) h
  · intro doc hdoc c next hkept hstore
    obtain ⟨pipelines, hpipelines, rfl⟩ := store_of_eq_ok.mp hstore
    refine ⟨hkept.seconds, fun p hp => ?_⟩
    obtain ⟨pipeline, hpipeline, hp⟩ := List.mem_flatMap.mp hp
    obtain ⟨d, hd, hread⟩ := forall_of_readSequence hdoc hpipelines pipeline hpipeline
    exact Pipeline.kept_of_read hd hread p hp
  · intro doc hdoc c next hkept hstore
    obtain ⟨tls, _, rfl⟩ := store_of_eq_ok.mp hstore
    exact ⟨hkept.seconds, hkept.free⟩
  · intro doc hdoc c next hkept hstore
    obtain ⟨listener, _, rfl⟩ := store_of_eq_ok.mp hstore
    exact ⟨hkept.seconds, hkept.free⟩
  · intro doc hdoc c next hkept hstore
    obtain ⟨timeouts, htimeouts, rfl⟩ := store_of_eq_ok.mp hstore
    exact ⟨Timeouts.kept_of_read hdoc htimeouts, hkept.free⟩
  · intro doc hdoc c next hkept hstore
    obtain ⟨observability, _, rfl⟩ := store_of_eq_ok.mp hstore
    exact ⟨hkept.seconds, hkept.free⟩

end Config
end ApiGateway
