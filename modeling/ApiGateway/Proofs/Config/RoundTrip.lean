import ApiGateway.Config.Writer
import ApiGateway.Proofs.Config.Kept

/-! What the text of a configuration reads as. Records are written in the order in which they are
read, so the text stores every field once; only the free values may fail to come back. -/

namespace ApiGateway

open Document

def Json.unlessNull : Json → Option Json
  | .null => none
  | v => some v

section

/-! What a configuration turns into where each of its free values reads as another one. -/

variable (value : Json → Json)

def Processor.settled (p : Processor) : Processor :=
  { p with
    condition := (p.condition.bind Json.unlessNull).map value
    params := value p.params }

def Pipeline.settled (p : Pipeline) : Pipeline :=
  { p with processors := p.processors.map (Processor.settled value) }

def Config.settled (c : Config) : Config :=
  { c with pipelines := c.pipelines.map (Pipeline.settled value) }

end

theorem Processor.settled_eq_self {p : Processor} :
    p.settled id = p ↔ p.condition ≠ some .null := by
  obtain ⟨condition, action, params⟩ := p
  cases condition with
  | none => simp [settled]
  | some v => cases v <;> simp [settled, Json.unlessNull]

theorem map_eq_self_iff {α : Type} {f : α → α} {items : List α} :
    items.map f = items ↔ ∀ item ∈ items, f item = item := by
  have h := @List.map_inj_left _ _ items f id
  rwa [List.map_id] at h

theorem Pipeline.settled_eq_self {p : Pipeline} :
    p.settled id = p ↔ ∀ step ∈ p.processors, step.condition ≠ some .null := by
  simp only [← Processor.settled_eq_self, ← map_eq_self_iff]
  exact ⟨congrArg processors, fun h => by rw [settled, h]⟩

theorem Config.settled_eq_self {c : Config} :
    c.settled id = c ↔ ∀ p ∈ c.processors, p.condition ≠ some .null := by
  rw [Config.processors, List.forall_mem_flatMap]
  simp only [← Pipeline.settled_eq_self, ← map_eq_self_iff]
  exact ⟨congrArg pipelines, fun h => by rw [settled, h]⟩

/-! ## Records from their documents -/

theorem Json.toDocument_ne_null {v : Json} {depth : Nat} (h : v ≠ .null) :
    v.toDocument depth ≠ .null := by
  cases v with
  | null => exact absurd rfl h
  | arr | obj => unfold toDocument; split <;> nofun
  | _ => nofun

theorem readsIff_arr {α β : Type} {read : Read α} {items : List β} {encode : β → Json}
    {value : β → α} {p : β → Prop} {depth : Nat} (hdepth : depth + 1 ≤ Json.maxDepth)
    (h : ∀ item ∈ items,
      ReadsIff read ((encode item).toDocument (depth + 1)) (value item) (p item)) :
    ReadsIff (readSequence read) ((Json.arr (items.map encode)).toDocument depth)
      (items.map value) (∀ item ∈ items, p item) := by
  rw [Json.toDocument, if_pos hdepth, Json.itemDocuments_eq_map, List.map_map]
  exact readsIff_sequence h

theorem readsIff_free {v : Json} (hkept : v.Everywhere Json.IsKept) :
    ReadsIff (readFree .refused) (v.toDocument 5) v (v.ReadsBack 5) := fun _ =>
  Json.toJson_toDocument v (by decide) hkept

section

variable {value : Json → Json} {readable : Json → Prop}

theorem readsIff_condition {v : Json}
    (h : ReadsIff (readFree .refused) (v.toDocument 5) (value v) (readable v)) :
    ReadsIff (readOptional (readFree .refused)) (v.toDocument 5) (v.unlessNull.map value)
      (readable v) := by
  cases v with
  | null =>
    have hnone : readOptional (readFree .refused) .null = .ok none := rfl
    exact (readsIff_of_eq_ok hnone).congr (iff_of_true trivial ((h .null).mp rfl).2)
  | _ => exact readsIff_some (Json.toDocument_ne_null nofun) h

theorem Processor.readsIff_encode {p : Processor}
    (hfree : ∀ v ∈ p.free,
      ReadsIff (readFree .refused) (v.toDocument 5) (value v) (readable v)) :
    ReadsIff ((record .refused).read .refused) ((p.encode .obj).toDocument 4) (p.settled value)
      (∀ v ∈ p.free, readable v) := by
  rw [forall_mem_free] at hfree
  simp only [forall_mem_free]
  obtain ⟨condition, action, params⟩ := p
  have hnodup : ((record .refused).fields.map (·.name)).Nodup := by simp [record, Field.of]
  have haction : ReadsIff readText ((Json.str action).toDocument 5) action True :=
    readsIff_of_eq_ok rfl
  cases condition with
  | none =>
    have hstores : StoresIff (record .refused).fields [none, _, _] (record .refused).blank _ _ :=
      .leave (.store haction (.store hfree.2 .nil))
    refine (Record.readsIff_table hstores rfl hnodup (by simp [record, Field.of])).congr ?_
    simp
  | some v =>
    refine ReadsIff.congr (Record.readsIff_table
      (.store (readsIff_condition (hfree.1 v rfl)) (.store haction (.store hfree.2 .nil)))
      rfl hnodup (by simp [record, Field.of])) ?_
    simp

theorem Endpoint.read_encode (e : Endpoint) :
    record.read .refused ((e.encode .obj).toDocument 4) = .ok e := by
  obtain ⟨path, host⟩ := e
  cases host <;> rfl

theorem Pipeline.readsIff_encode {p : Pipeline}
    (hfree : ∀ step ∈ p.processors, ∀ v ∈ step.free,
      ReadsIff (readFree .refused) (v.toDocument 5) (value v) (readable v)) :
    ReadsIff ((record .refused).read .refused) ((p.encode .obj).toDocument 2) (p.settled value)
      (∀ step ∈ p.processors, ∀ v ∈ step.free, readable v) := by
  obtain ⟨name, processors, endpoints⟩ := p
  have hnodup : ((record .refused).fields.map (·.name)).Nodup := by simp [record, Field.of]
  have hname : ReadsIff readText ((Json.str name).toDocument 3) name True := readsIff_of_eq_ok rfl
  have hprocessors := @readsIff_arr _ _ _ processors _ _ _ 3 (by decide) fun step hstep =>
    Processor.readsIff_encode (hfree step hstep)
  have hendpoints := @readsIff_arr _ _ _ endpoints _ _ _ 3 (by decide) fun e _ =>
    readsIff_of_eq_ok e.read_encode
  rw [List.map_id'] at hendpoints
  refine ReadsIff.congr (Record.readsIff_table
    (.store hname (.store hprocessors (.store hendpoints .nil)))
    rfl hnodup (by simp [record, Field.of])) ?_
  simp

theorem Listener.read_encode (l : Listener) :
    record.read .refused ((l.encode .obj).toDocument 1) = .ok l := rfl

theorem Timeouts.read_encode (t : Timeouts) :
    record.read .refused ((t.encode .obj).toDocument 1) = .ok t := rfl

theorem Observability.read_encode (o : Observability) :
    record.read .refused ((o.encode .obj).toDocument 1) = .ok o := rfl

theorem Config.readsIff_encode {c : Config}
    (hfree : ∀ p ∈ c.processors, ∀ v ∈ p.free,
      ReadsIff (readFree .refused) (v.toDocument 5) (value v) (readable v)) :
    ReadsIff ((record .refused).read .refused) ((c.encode .obj).toDocument 0) (c.settled value)
      (∀ p ∈ c.processors, ∀ v ∈ p.free, readable v) := by
  simp only [Config.processors, List.forall_mem_flatMap] at hfree ⊢
  obtain ⟨pipelines, tls, listener, timeouts, observability⟩ := c
  have hnodup : ((record .refused).fields.map (·.name)).Nodup := by simp [record, Field.of]
  have hpipelines := @readsIff_arr _ _ _ pipelines _ _ _ 1 (by decide) fun pipeline hpipeline =>
    Pipeline.readsIff_encode (hfree pipeline hpipeline)
  have htls : readOptional (TlsFiles.record.read .refused)
      (((tls.map (TlsFiles.encode .obj)).getD .null).toDocument 1) = .ok tls := by
    cases tls <;> rfl
  refine ReadsIff.congr (Record.readsIff_table
    (.store hpipelines
      (.store (readsIff_of_eq_ok htls)
        (.store (readsIff_of_eq_ok listener.read_encode)
          (.store (readsIff_of_eq_ok timeouts.read_encode)
            (.store (readsIff_of_eq_ok observability.read_encode) .nil)))))
    rfl hnodup (by simp [record, Field.of])) ?_
  simp

end

/-! ## What a text can hold -/

theorem Processor.exact_encode {p : Processor} (h : ∀ v ∈ p.free, v.Everywhere Json.IsExact) :
    (p.encode .obj).Everywhere Json.IsExact := by
  obtain ⟨condition, action, params⟩ := p
  cases condition <;> simp_all [encode, free, Json.Everywhere, Json.MembersEverywhere, Json.IsExact]

theorem Endpoint.exact_encode (e : Endpoint) : (e.encode .obj).Everywhere Json.IsExact := by
  obtain ⟨path, host⟩ := e
  cases host <;> simp [encode, Json.Everywhere, Json.MembersEverywhere, Json.IsExact]

theorem Pipeline.exact_encode {p : Pipeline}
    (h : ∀ step ∈ p.processors, ∀ v ∈ step.free, v.Everywhere Json.IsExact) :
    (p.encode .obj).Everywhere Json.IsExact := by
  refine ⟨trivial, trivial, ⟨trivial, Json.itemsEverywhere_iff.mpr ?_⟩,
    ⟨trivial, Json.itemsEverywhere_iff.mpr ?_⟩, trivial⟩
  · exact List.forall_mem_map.mpr fun step hstep => Processor.exact_encode (h step hstep)
  · exact List.forall_mem_map.mpr fun e _ => e.exact_encode

theorem Config.exact_encode {c : Config} (hseconds : Number.fits c.timeouts.requestSecs = true)
    (h : ∀ p ∈ c.processors, ∀ v ∈ p.free, v.Everywhere Json.IsExact) :
    (c.encode .obj).Everywhere Json.IsExact := by
  rw [processors, List.forall_mem_flatMap] at h
  have htls : ((c.tls.map (TlsFiles.encode .obj)).getD .null).Everywhere Json.IsExact := by
    cases c.tls with
    | none => trivial
    | some t => exact ⟨trivial, trivial, trivial, trivial⟩
  refine ⟨trivial, ⟨trivial, Json.itemsEverywhere_iff.mpr ?_⟩, htls, ?_, ?_, ?_, trivial⟩
  · exact List.forall_mem_map.mpr fun p hp => Pipeline.exact_encode (h p hp)
  · exact ⟨trivial, trivial, trivial⟩
  · exact ⟨trivial, hseconds, trivial⟩
  · exact ⟨trivial, trivial, trivial, trivial, trivial⟩

/-! ## Texts -/

def Json.nested : Nat → Json
  | 0 => .null
  | n + 1 => .arr [nested n]

theorem Json.everywhere_nested {p : Json → Prop} (hnull : p .null) (harr : ∀ items, p (.arr items))
    (n : Nat) : (nested n).Everywhere p := by
  induction n with
  | zero => exact hnull
  | succ n ih => exact ⟨harr _, ih, trivial⟩

theorem Json.height_nested (n : Nat) : (nested n).height = n := by
  induction n with
  | zero => rfl
  | succ n ih => rw [nested, height, itemsHeight, itemsHeight, ih, Nat.max_zero]

namespace Config

theorem parse_json_eq_ok {text : String} {c : Config} :
    parse .json text = .ok c ↔
      (record .refused).read .refused (Json.document text).1 = .ok c ∧
        (Json.document text).2 = false := by
  simp only [parse, parseJson, mapError_eq_ok]
  cases (record .refused).read .refused (Json.document text).1 with
  | error e => simp
  | ok config => cases (Json.document text).2 <;> simp

def guarded (condition : Option Json) (params : Json) : Config :=
  { Config.default with pipelines := [⟨"p", [⟨condition, "pass", params⟩], []⟩] }

theorem forall_mem_guarded {condition : Option Json} {params : Json} {P : Json → Prop} :
    (∀ p ∈ (guarded condition params).processors, ∀ v ∈ p.free, P v) ↔
      (∀ v, condition = some v → P v) ∧ P params := by
  have hprocessors : (guarded condition params).processors = [⟨condition, "pass", params⟩] := rfl
  rw [hprocessors, List.forall_mem_singleton, Processor.forall_mem_free]

theorem parse_guarded {condition : Option Json} {params : Json} {value : Json → Json}
    (hexact : (∀ v, condition = some v → v.Everywhere Json.IsExact) ∧
      params.Everywhere Json.IsExact)
    (hfree : (∀ v, condition = some v → readFree .refused (v.toDocument 5) = .ok (value v)) ∧
      readFree .refused (params.toDocument 5) = .ok (value params)) :
    parse .json (guarded condition params).text =
      .ok ((guarded condition params).settled value) := by
  have hencode : ((guarded condition params).encode .obj).Everywhere Json.IsExact :=
    exact_encode (by simp [guarded, default, Timeouts.default, Number.fits])
      (forall_mem_guarded.mpr hexact)
  rw [parse_json_eq_ok, Config.text, Json.document_text hencode, and_iff_left rfl]
  have hread := @readsIff_encode value (fun _ => True) (guarded condition params)
    (forall_mem_guarded.mpr ⟨fun v hv => readsIff_of_eq_ok (hfree.1 v hv),
      readsIff_of_eq_ok hfree.2⟩)
  exact (hread _).mpr ⟨rfl, fun _ _ _ _ => trivial⟩

theorem parse_text_eq_ok {text : String} {c result : Config} (hparse : parse .json text = .ok c)
    (hfloat : ∀ p ∈ c.processors, ∀ v ∈ p.free, v.Everywhere fun v => ¬ v.IsFloat) :
    parse .json c.text = .ok result ↔
      result = c.settled id ∧ ∀ p ∈ c.processors, ∀ v ∈ p.free, v.ReadsBack 5 := by
  have hkept := kept_of_read (Json.inRange_document text) (parse_json_eq_ok.mp hparse).1
  have hexact : (c.encode .obj).Everywhere Json.IsExact :=
    exact_encode hkept.seconds fun p hp v hv =>
      Json.everywhere_imp (fun _ => Json.isExact_of_isKept) v (hkept.free p hp v hv)
        (hfloat p hp v hv)
  rw [parse_json_eq_ok, Config.text, Json.document_text hexact, and_iff_left rfl]
  exact readsIff_encode (fun p hp v hv => readsIff_free (hkept.free p hp v hv)) result

/-- A configuration without floating-point numbers is read back from its text exactly if none of its
conditions is null and all its free values can be read under the five levels of brackets around
them. -/
theorem parse_text_eq_self {text : String} {c : Config} (hparse : parse .json text = .ok c)
    (hfloat : ∀ p ∈ c.processors, ∀ v ∈ p.free, v.Everywhere fun v => ¬ v.IsFloat) :
    parse .json c.text = .ok c ↔ ∀ p ∈ c.processors,
      p.condition ≠ some .null ∧ ∀ v ∈ p.free, v.ReadsBack 5 := by
  rw [parse_text_eq_ok hparse hfloat, eq_comm, settled_eq_self, ← forall₂_and]

theorem parse_text_eq_self_unordered :
    parse .json (guarded none (.obj [("b", .nat 1), ("a", .str "2")])).text =
        .ok (guarded none (.obj [("a", .str "2"), ("b", .nat 1)])) ∧
      parse .json (guarded none (.obj [("a", .str "2"), ("b", .nat 1)])).text =
        .ok (guarded none (.obj [("a", .str "2"), ("b", .nat 1)])) := by
  have hparse : parse .json (guarded none (.obj [("b", .nat 1), ("a", .str "2")])).text =
      .ok (guarded none (.obj [("a", .str "2"), ("b", .nat 1)])) :=
    @parse_guarded none _ (fun _ => .obj [("a", .str "2"), ("b", .nat 1)])
      ⟨nofun, trivial, rfl, trivial, trivial⟩ ⟨nofun, rfl⟩
  refine ⟨hparse, (parse_text_eq_self hparse ?_).mpr ?_⟩
  · exact forall_mem_guarded.mpr ⟨nofun, id, id, id, trivial⟩
  · refine List.forall_mem_singleton.mpr ⟨nofun, List.forall_mem_singleton.mpr ⟨?_, ?_⟩⟩
    · exact ⟨(by decide : "a" ≠ embeddedName), id, id, trivial⟩
    · decide

/-- A text with a configuration without floating-point numbers that is not read back. -/
structure Lost (text : String) (c : Config) : Prop where
  parsed : parse .json text = .ok c
  exact : ∀ p ∈ c.processors, ∀ v ∈ p.free, v.Everywhere fun v => ¬ v.IsFloat
  not_read_back : parse .json c.text ≠ .ok c

theorem lost_of_not_readsBack {text : String} {params : Json}
    (hparse : parse .json text = .ok (guarded none params))
    (hfloat : params.Everywhere fun v => ¬ v.IsFloat) (h : ¬ params.ReadsBack 5) :
    Lost text (guarded none params) := by
  have hexact := forall_mem_guarded.mpr ⟨(nofun : ∀ v, none = some v → _), hfloat⟩
  refine ⟨hparse, hexact, fun hback => h ?_⟩
  exact (forall_mem_guarded.mp ((parse_text_eq_ok hparse hexact).mp hback).2).2

theorem lost_of_order :
    Lost (guarded none (.obj [("a", .nat 1), (embeddedName, .str "2")])).text
      (guarded none (.obj [(embeddedName, .str "2"), ("a", .nat 1)])) :=
  lost_of_not_readsBack
    (@parse_guarded none _ (fun _ => .obj [(embeddedName, .str "2"), ("a", .nat 1)])
      ⟨nofun, trivial, rfl, trivial, trivial⟩ ⟨nofun, rfl⟩)
    -- in order, the name of an embedded text comes first
    ⟨id, id, id, trivial⟩ fun h => h.plain.1 rfl

theorem lost_of_null :
    Lost (guarded (some (.embedding .null)) .null).text (guarded (some .null) .null) := by
  have hembedded : readFree .refused ((Json.embedding .null).toDocument 5) = .ok .null :=
    Json.toJson_embedding trivial trivial ⟨id, by decide⟩ (by decide)
  have hparse : parse .json (guarded (some (.embedding .null)) .null).text =
      .ok (guarded (some .null) .null) :=
    @parse_guarded _ _ (fun _ => .null)
      ⟨fun _ h => Option.some.inj h ▸ ⟨trivial, trivial, trivial⟩, trivial⟩
      ⟨fun _ h => Option.some.inj h ▸ hembedded, rfl⟩
  have hexact := (@forall_mem_guarded (some .null) .null
    fun v => v.Everywhere fun v => ¬ v.IsFloat).mpr ⟨fun _ h => Option.some.inj h ▸ id, id⟩
  refine ⟨hparse, hexact, fun hback => ?_⟩
  have hsettled := ((parse_text_eq_ok hparse hexact).mp hback).1
  exact settled_eq_self.mp hsettled.symm _ (List.mem_singleton.mpr rfl) rfl

theorem lost_of_depth :
    Lost (guarded none (.embedding (.nested 123))).text (guarded none (.nested 123)) := by
  have hback : (Json.nested 123).ReadsBack 0 :=
    ⟨Json.everywhere_nested id (fun _ => id) 123, by rw [Json.height_nested]; decide⟩
  have hembedded : readFree .refused ((Json.embedding (.nested 123)).toDocument 5) =
      .ok (.nested 123) :=
    Json.toJson_embedding (Json.everywhere_nested trivial (fun _ => trivial) 123)
      (Json.everywhere_nested trivial (fun _ => trivial) 123) hback (by decide)
  refine lost_of_not_readsBack
    (@parse_guarded none _ (fun _ => .nested 123) ⟨nofun, trivial, trivial, trivial⟩
      ⟨nofun, hembedded⟩)
    (Json.everywhere_nested id (fun _ => id) 123) fun h => ?_
  have hheight := h.height_le
  rw [Json.height_nested] at hheight
  exact absurd hheight (by decide)

/-- None of the three conditions for being read back follows from being read. -/
theorem lost_of_embedded_text :
    Lost (guarded none (.obj [("a", .nat 1), (embeddedName, .str "2")])).text
        (guarded none (.obj [(embeddedName, .str "2"), ("a", .nat 1)])) ∧
      Lost (guarded (some (.embedding .null)) .null).text (guarded (some .null) .null) ∧
      Lost (guarded none (.embedding (.nested 123))).text (guarded none (.nested 123)) :=
  ⟨lost_of_order, lost_of_null, lost_of_depth⟩

end Config
end ApiGateway
