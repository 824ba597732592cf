import ApiGateway.Document.Record
import ApiGateway.Proofs.Json.Canonical

/-! Records in documents. A table that gives fields of a record in order is read field by field, and
what every field keeps is kept by the record. -/

namespace ApiGateway.Document

theorem refuse_ne_ok {α : Type} (expected : Expected) (doc : Document) (a : α) :
    refuse expected doc ≠ .ok a := by
  unfold refuse
  split <;> nofun

theorem orStop_ok {α : Type} (a : α) : orStop (.ok a) = .ok a := rfl

variable {α σ : Type} {read : Read α} {put : σ → α → σ}

/-- A document reads as the item under a condition, and as nothing without it. -/
def ReadsIff (read : Read α) (doc : Document) (item : α) (p : Prop) : Prop :=
  ∀ a, read doc = .ok a ↔ a = item ∧ p

theorem readsIff_of_eq_ok {doc : Document} {item : α} (h : read doc = .ok item) :
    ReadsIff read doc item True := fun a => by
  rw [h, and_true, Except.ok.injEq, eq_comm]

theorem ReadsIff.congr {doc : Document} {item : α} {p q : Prop} (h : ReadsIff read doc item p)
    (hpq : p ↔ q) : ReadsIff read doc item q := fun a => (h a).trans (and_congr_right' hpq)

theorem readsIff_sequence {β : Type} {items : List β} {spell : β → Document} {value : β → α}
    {p : β → Prop} (h : ∀ item ∈ items, ReadsIff read (spell item) (value item) (p item)) :
    ReadsIff (readSequence read) (.list (items.map spell) none) (items.map value)
      (∀ item ∈ items, p item) := by
  have hitems : ∀ values, readItems read (items.map spell) = .ok values ↔
      values = items.map value ∧ ∀ item ∈ items, p item := by
    induction items with
    | nil => simp [readItems, eq_comm]
    | cons item rest ih =>
      obtain ⟨hitem, hrest⟩ := List.forall_mem_cons.mp h
      intro values
      simp only [List.map_cons, readItems, bind_eq_ok, hitem _, ih hrest, Except.ok.injEq,
        List.forall_mem_cons]
      constructor
      · rintro ⟨_, ⟨rfl, hp⟩, _, ⟨rfl, hall⟩, rfl⟩
        exact ⟨rfl, hp, hall⟩
      · rintro ⟨rfl, hp, hall⟩
        exact ⟨value item, ⟨rfl, hp⟩, rest.map value, ⟨rfl, hall⟩, rfl⟩
  intro values
  simp only [readSequence, bind_eq_ok, hitems, finish_eq_ok]
  constructor
  · rintro ⟨_, h, _, rfl⟩
    exact h
  · exact fun h => ⟨values, h, trivial, rfl⟩

theorem readsIff_some {doc : Document} {item : α} {p : Prop} (hdoc : doc ≠ .null)
    (h : ReadsIff read doc item p) : ReadsIff (readOptional read) doc (some item) p := by
  have hmap : readOptional read doc = (read doc).map some := by
    unfold readOptional
    split
    · exact absurd rfl hdoc
    · rfl
  intro a
  rw [hmap, map_eq_ok]
  constructor
  · rintro ⟨_, hread, rfl⟩
    obtain ⟨rfl, hp⟩ := (h _).mp hread
    exact ⟨rfl, hp⟩
  · rintro ⟨rfl, hp⟩
    exact ⟨item, (h item).mpr ⟨rfl, hp⟩, rfl⟩

theorem readOptional_eq_ok {doc : Document} {result : Option α}
    (h : readOptional read doc = .ok result) :
    result = none ∨ ∃ a, read doc = .ok a ∧ result = some a := by
  unfold readOptional at h
  split at h
  · cases h; exact .inl rfl
  · obtain ⟨a, ha, rfl⟩ := map_eq_ok.mp h
    exact .inr ⟨a, ha, rfl⟩

theorem forall_of_readItems {docs : List Document} {items : List α} (hdocs : ∀ d ∈ docs, d.InRange)
    (h : readItems read docs = .ok items) : ∀ item ∈ items, ∃ d, d.InRange ∧ read d = .ok item := by
  induction docs generalizing items with
  | nil => cases h; exact List.forall_mem_nil _
  | cons d ds ih =>
    obtain ⟨hd, hds⟩ := List.forall_mem_cons.mp hdocs
    obtain ⟨v, hv, h⟩ := bind_eq_ok.mp h
    obtain ⟨vs, hvs, h⟩ := bind_eq_ok.mp h
    cases h
    exact List.forall_mem_cons.mpr ⟨⟨d, hd, hv⟩, ih hds hvs⟩

theorem forall_of_readSequence {doc : Document} {items : List α} (hdoc : doc.InRange)
    (h : readSequence read doc = .ok items) :
    ∀ item ∈ items, ∃ d, d.InRange ∧ read d = .ok item := by
  cases hdoc with
  | list hdocs =>
    obtain ⟨values, hvalues, h⟩ := bind_eq_ok.mp h
    obtain ⟨_, rfl⟩ := finish_eq_ok.mp h
    exact forall_of_readItems hdocs hvalues
  | _ =>
    rw [readSequence.eq_def] at h
    exact absurd h (refuse_ne_ok _ _ _)

theorem fits_of_readUnsigned {doc : Document} {n : Nat} (hdoc : doc.InRange)
    (h : readUnsigned doc = .ok n) : Number.fits n = true := by
  cases hdoc with
  | int hfits =>
    rw [readUnsigned] at h
    split_ifs at h with hnonneg
    cases h
    rwa [Int.toNat_of_nonneg hnonneg]
  | _ =>
    rw [readUnsigned.eq_def] at h
    exact absurd h (refuse_ne_ok _ _ _)

theorem store_of_eq_ok {name : String} {required : Bool} {doc : Document} {record next : σ} :
    (Field.of name required read put).store doc record = .ok next ↔
      ∃ a, read doc = .ok a ∧ put record a = next := map_eq_ok

/-! ## Fields in order -/

abbrev Given (σ : Type) := List (Field σ × Option Document)

namespace Given

def members : Given σ → List (Except Stop String × Document)
  | [] => []
  | (field, some doc) :: rest => (.ok field.name, doc) :: members rest
  | (_, none) :: rest => members rest

def storeAll : Given σ → σ → Except ReadError σ
  | [], record => .ok record
  | (field, some doc) :: rest, record => do
    let record ← field.store doc record
    storeAll rest record
  | (_, none) :: rest, record => storeAll rest record

def present : Given σ → List String
  | [] => []
  | (field, some _) :: rest => present rest ++ [field.name]
  | (_, none) :: rest => present rest

def fields (given : Given σ) : List (Field σ) := given.map (·.1)

theorem mem_present {given : Given σ} {field : Field σ} {doc : Document}
    (h : (field, some doc) ∈ given) : field.name ∈ given.present := by
  induction given with
  | nil => cases h
  | cons first rest ih =>
    obtain ⟨other, doc?⟩ := first
    rcases List.mem_cons.mp h with heq | hrest
    · cases heq
      exact List.mem_append_right _ (List.mem_singleton.mpr rfl)
    · cases doc? with
      | none => exact ih hrest
      | some => exact List.mem_append_left _ (ih hrest)

end Given

/-! ## Records in documents -/

def StoresIff (fields : List (Field σ)) (docs : List (Option Document)) (first last : σ)
    (p : Prop) : Prop :=
  ∀ next, Given.storeAll (fields.zip docs) first = .ok next ↔ next = last ∧ p

section

variable {fields : List (Field σ)} {docs : List (Option Document)} {first last : σ} {p q : Prop}

theorem StoresIff.nil : StoresIff [] [] first first True := fun next => by
  rw [List.zip_nil_left, Given.storeAll, and_true, Except.ok.injEq, eq_comm]

theorem StoresIff.store {name : String} {required : Bool} {doc : Document} {item : α}
    (hread : ReadsIff read doc item p) (h : StoresIff fields docs (put first item) last q) :
    StoresIff (.of name required read put :: fields) (some doc :: docs) first last (p ∧ q) := by
  intro next
  rw [List.zip_cons_cons, Given.storeAll, bind_eq_ok]
  constructor
  · rintro ⟨_, hstore, hrest⟩
    obtain ⟨a, ha, rfl⟩ := store_of_eq_ok.mp hstore
    obtain ⟨rfl, hp⟩ := (hread a).mp ha
    obtain ⟨rfl, hq⟩ := (h next).mp hrest
    exact ⟨rfl, hp, hq⟩
  · rintro ⟨rfl, hp, hq⟩
    exact ⟨_, store_of_eq_ok.mpr ⟨item, (hread item).mpr ⟨rfl, hp⟩, rfl⟩, (h _).mpr ⟨rfl, hq⟩⟩

theorem StoresIff.leave {field : Field σ} (h : StoresIff fields docs first last p) :
    StoresIff (field :: fields) (none :: docs) first last p := h

end

namespace Record

variable {shape : Record σ} {surplus : Surplus} {record : σ}

theorem find?_field {passed fields : List (Field σ)} {field : Field σ}
    (hfresh : field.name ∉ passed.map (·.name)) :
    (passed ++ field :: fields).find? (fun other => other.name = field.name) = some field := by
  have hpassed : passed.find? (fun other => other.name = field.name) = none :=
    List.find?_eq_none.mpr fun other hother heq =>
      hfresh (of_decide_eq_true heq ▸ List.mem_map_of_mem hother)
  rw [List.find?_append, hpassed, Option.none_or]
  exact List.find?_cons_of_pos (decide_eq_true rfl)

theorem readMembers_given {given : Given σ} {passed : List (Field σ)} {seen : List String}
    {first : σ} (hnodup : ((passed ++ given.fields).map (·.name)).Nodup)
    (hseen : ∀ name ∈ seen, name ∈ passed.map (·.name)) :
    readMembers (passed ++ given.fields) seen first given.members =
      (given.storeAll first).map fun record => (given.present ++ seen, record) := by
  induction given generalizing passed seen first with
  | nil => rfl
  | cons entry rest ih =>
    obtain ⟨field, doc?⟩ := entry
    have hfresh : field.name ∉ passed.map (·.name) := by
      rw [Given.fields, List.map_cons, List.map_append, List.map_cons] at hnodup
      exact fun hmem => (List.nodup_append.mp hnodup).2.2 _ hmem _ List.mem_cons_self rfl
    have hpassed : passed ++ Given.fields ((field, doc?) :: rest) =
        (passed ++ [field]) ++ Given.fields rest := List.append_cons ..
    have hkept : ∀ name ∈ seen, name ∈ (passed ++ [field]).map (·.name) := fun name hname =>
      List.map_append ▸ List.mem_append_left _ (hseen name hname)
    cases doc? with
    | none =>
      rw [hpassed] at hnodup ⊢
      exact ih hnodup hkept
    | some doc =>
      have hnew : seen.contains field.name = false := by
        rw [Bool.eq_false_iff, ne_eq, List.contains_iff_mem]
        exact fun hmem => hfresh (hseen _ hmem)
      have hlast : ∀ name ∈ field.name :: seen, name ∈ (passed ++ [field]).map (·.name) :=
        List.forall_mem_cons.mpr ⟨by simp, hkept⟩
      rw [Given.members, readMembers]
      simp only [orStop_ok, bind, Except.bind]
      rw [Given.fields, List.map_cons, find?_field hfresh]
      simp only [hnew, Given.storeAll, Given.present, bind, Except.bind]
      cases field.store doc first with
      | error e => rfl
      | ok next =>
        have hrest := @ih (passed ++ [field]) (field.name :: seen) next (hpassed ▸ hnodup) hlast
        rw [← hpassed, Given.fields, List.map_cons] at hrest
        rw [List.append_assoc]
        exact hrest

theorem read_given {given : Given σ} (hfields : shape.fields = given.fields)
    (hnodup : (shape.fields.map (·.name)).Nodup)
    (hrequired : ∀ field, (field, none) ∈ given → field.required = false) :
    shape.read surplus (.table given.members none) = given.storeAll shape.blank := by
  have hread := @readMembers_given _ given [] [] shape.blank (hfields ▸ hnodup)
    (List.forall_mem_nil _)
  rw [List.nil_append, List.append_nil, ← hfields] at hread
  have hnone : shape.fields.find? (fun field =>
      field.required && !given.present.contains field.name) = none := by
    refine List.find?_eq_none.mpr fun field hfield hmissing => ?_
    rw [hfields] at hfield
    obtain ⟨⟨_, doc?⟩, hmem, rfl⟩ := List.mem_map.mp hfield
    obtain ⟨hreq, hmissing⟩ := Bool.and_eq_true_iff.mp hmissing
    cases doc? with
    | none => exact Bool.false_ne_true ((hrequired _ hmem).symm.trans hreq)
    | some doc =>
      rw [List.contains_iff_mem.mpr (Given.mem_present hmem)] at hmissing
      cases hmissing
  rw [Record.read, hread]
  cases given.storeAll shape.blank with
  | error e => rfl
  | ok record =>
    simp only [Except.map, bind, Except.bind, finish, hnone]

theorem readsIff_table {docs : List (Option Document)} {last : σ} {p : Prop}
    (h : StoresIff shape.fields docs shape.blank last p)
    (hlength : shape.fields.length = docs.length) (hnodup : (shape.fields.map (·.name)).Nodup)
    (hrequired : ∀ field, (field, none) ∈ shape.fields.zip docs → field.required = false) :
    ReadsIff (shape.read surplus) (.table (Given.members (shape.fields.zip docs)) none) last p := by
  intro next
  have hfields : shape.fields = Given.fields (shape.fields.zip docs) :=
    (List.map_fst_zip hlength.le).symm
  rw [read_given hfields hnodup hrequired, h next]

/-! ## What a record keeps -/

variable {P : σ → Prop}

theorem readMembers_keeps {fields : List (Field σ)}
    (hstore : ∀ field ∈ fields, ∀ doc, doc.InRange → ∀ record next, P record →
      field.store doc record = .ok next → P next)
    {members : List (Except Stop String × Document)} (hmembers : ∀ m ∈ members, m.2.InRange)
    {seen : List String} {first : σ} (hfirst : P first) {result : List String × σ}
    (h : readMembers fields seen first members = .ok result) : P result.2 := by
  induction members generalizing seen first with
  | nil => cases h; exact hfirst
  | cons m ms ih =>
    obtain ⟨hm, hms⟩ := List.forall_mem_cons.mp hmembers
    rw [readMembers] at h
    obtain ⟨name, _, h⟩ := bind_eq_ok.mp h
    split at h
    next =>
      split at h
      · cases h
      · exact ih hms hfirst h
    next field hfound =>
      split_ifs at h
      obtain ⟨next, hnext, h⟩ := bind_eq_ok.mp h
      exact ih hms (hstore field (List.mem_of_find?_eq_some hfound) _ hm _ _ hfirst hnext) h

theorem readEntries_keeps {stop : Option Stop} {index : Nat} {fields : List (Field σ)}
    (hstore : ∀ field ∈ fields, ∀ doc, doc.InRange → ∀ record next, P record →
      field.store doc record = .ok next → P next)
    {docs : List Document} (hdocs : ∀ d ∈ docs, d.InRange) {first : σ} (hfirst : P first)
    (h : readEntries shape surplus stop index first fields docs = .ok record) : P record := by
  induction fields generalizing index docs first with
  | nil =>
    cases docs with
    | nil => exact (finish_eq_ok.mp h).2 ▸ hfirst
    | cons =>
      cases surplus with
      | refused => cases h
      | ignored => cases h; exact hfirst
  | cons field fields ih =>
    obtain ⟨hfield, hfields⟩ := List.forall_mem_cons.mp hstore
    cases docs with
    | nil =>
      rw [readEntries.eq_def] at h
      dsimp only at h
      split at h
      · cases h
      · split_ifs at h
        exact ih hfields hdocs hfirst h
    | cons doc docs =>
      obtain ⟨hdoc, hdocs⟩ := List.forall_mem_cons.mp hdocs
      obtain ⟨next, hnext, h⟩ := bind_eq_ok.mp h
      exact ih hfields hdocs (hfield doc hdoc _ _ hfirst hnext) h

theorem read_keeps {doc : Document} (hdoc : doc.InRange) (hblank : P shape.blank)
    (hstore : ∀ field ∈ shape.fields, ∀ doc, doc.InRange → ∀ record next, P record →
      field.store doc record = .ok next → P next)
    (h : shape.read surplus doc = .ok record) : P record := by
  cases hdoc with
  | table hmembers =>
    obtain ⟨result, hresult, h⟩ := bind_eq_ok.mp h
    obtain ⟨next, hnext, h⟩ := bind_eq_ok.mp h
    split at h
    · cases h
    · cases h
      exact (finish_eq_ok.mp hnext).2 ▸ readMembers_keeps hstore hmembers hblank hresult
  | list hitems => exact readEntries_keeps hstore hitems hblank h
  | _ =>
    rw [Record.read.eq_def] at h
    exact absurd h (refuse_ne_ok _ _ _)

end Record
end ApiGateway.Document
