import ApiGateway.Proofs.Except
import ApiGateway.Proofs.Json.Printing
import ApiGateway.Proofs.Json.Range

/-! What a reader gives is in a form that a text keeps: integers of 64 bits, and objects with their
members in order. A value in that form is the value that its document stands for, except where an
object reads as a text inside the text. -/

namespace ApiGateway

theorem Document.finish_eq_ok {α : Type} {stop : Option Stop} {a b : α} :
    Document.finish stop a = .ok b ↔ stop = none ∧ a = b := by
  cases stop <;> simp [Document.finish]

namespace Json

open Document (InRange)

/-- A value as readers give it: integers of 64 bits, members in order. An object whose only member
has the name of an embedded text never comes out of a reader. -/
def IsKept : Json → Prop
  | .num (.int n) => Number.fits n = true
  | .obj members => Dict.Ordered members ∧ Dict.keys members ≠ [Document.embeddedName]
  | _ => True

variable {p q : Json → Prop}

theorem itemsEverywhere_iff {vs : List Json} :
    ItemsEverywhere p vs ↔ ∀ v ∈ vs, v.Everywhere p := by
  induction vs with
  | nil => simp [ItemsEverywhere]
  | cons v vs ih => simp [ItemsEverywhere, ih]

theorem membersEverywhere_iff {ms : List (String × Json)} :
    MembersEverywhere p ms ↔ ∀ m ∈ ms, m.2.Everywhere p := by
  induction ms with
  | nil => simp [MembersEverywhere]
  | cons m ms ih => simp [MembersEverywhere, ih]

variable {parse : String → Except Document.DataError Json} {surplus : Document.Surplus}

theorem finishEmbedded_eq_ok {rest : List (Except Stop String × Document)} {stop : Option Stop}
    {value v : Json} (h : Document.finishEmbedded surplus rest stop value = .ok v) :
    value = v := by
  unfold Document.finishEmbedded at h
  split at h <;> first | exact Except.ok.inj h | cases h

theorem forall_itemsToJson {items : List Document} {values : List Json}
    (hitems : ∀ d ∈ items, ∀ v, d.toJson parse surplus = .ok v → v.Everywhere p)
    (h : Document.itemsToJson parse surplus items = .ok values) : ItemsEverywhere p values := by
  induction items generalizing values with
  | nil => cases h; trivial
  | cons d ds ih =>
    obtain ⟨hd, hds⟩ := List.forall_mem_cons.mp hitems
    obtain ⟨v, hv, h⟩ := bind_eq_ok.mp h
    obtain ⟨vs, hvs, h⟩ := bind_eq_ok.mp h
    cases h
    exact ⟨hd v hv, ih hds hvs⟩

theorem forall_membersToJson {members : List (Except Stop String × Document)}
    {entries : List (String × Json)}
    (hmembers : ∀ m ∈ members, ∀ v, m.2.toJson parse surplus = .ok v → v.Everywhere p)
    (h : Document.membersToJson parse surplus members = .ok entries) :
    MembersEverywhere p entries := by
  induction members generalizing entries with
  | nil => cases h; trivial
  | cons m ms ih =>
    obtain ⟨hm, hms⟩ := List.forall_mem_cons.mp hmembers
    obtain ⟨k, _, h⟩ := bind_eq_ok.mp h
    obtain ⟨v, hv, h⟩ := bind_eq_ok.mp h
    obtain ⟨vs, hvs, h⟩ := bind_eq_ok.mp h
    cases h
    exact ⟨hm v hv, ih hms hvs⟩

theorem names_ofList_ne {members : List (Except Stop String × Document)}
    {entries : List (String × Json)} (hmembers : Document.embedded? members = none)
    (h : Document.membersToJson parse surplus members = .ok entries) :
    (Dict.ofList entries).keys ≠ [Document.embeddedName] := by
  intro hkeys
  cases members with
  | nil => cases h; cases hkeys
  | cons m ms =>
    obtain ⟨key, d⟩ := m
    obtain ⟨k, hk, h⟩ := bind_eq_ok.mp h
    obtain ⟨v, _, h⟩ := bind_eq_ok.mp h
    obtain ⟨vs, _, h⟩ := bind_eq_ok.mp h
    cases h
    obtain rfl := mapError_eq_ok.mp hk
    -- the first member of the table is among the members of the object
    have hmem : k ∈ (Dict.ofList ((k, v) :: vs)).keys := Dict.mem_keys_ofList List.mem_cons_self
    rw [hkeys, List.mem_singleton] at hmem
    rw [Document.embedded?, if_pos hmem] at hmembers
    cases hmembers

theorem everywhere_isKept_of_toJson
    (hparse : ∀ text v, parse text = .ok v → v.Everywhere IsKept) {doc : Document}
    (h : doc.InRange) : ∀ v, doc.toJson parse surplus = .ok v → v.Everywhere IsKept := by
  induction h with
  | null | bool | float | unbounded | str => rintro v h; cases h; trivial
  | int hfits => rintro v h; cases h; exact hfits
  | broken => rintro v h; cases h
  | list _ ih =>
    intro v h
    obtain ⟨values, hvalues, h⟩ := bind_eq_ok.mp h
    obtain ⟨_, rfl⟩ := Document.finish_eq_ok.mp h
    exact ⟨trivial, forall_itemsToJson ih hvalues⟩
  | table _ ih =>
    intro v h
    rw [Document.toJson] at h
    split at h
    next =>
      obtain ⟨text, _, h⟩ := bind_eq_ok.mp h
      obtain ⟨value, hvalue, h⟩ := bind_eq_ok.mp h
      rw [← finishEmbedded_eq_ok h]
      exact hparse text value (mapError_eq_ok.mp hvalue)
    next hembedded =>
      obtain ⟨entries, hentries, h⟩ := bind_eq_ok.mp h
      obtain ⟨_, rfl⟩ := Document.finish_eq_ok.mp h
      refine ⟨⟨Dict.ordered_ofList entries, names_ofList_ne hembedded hentries⟩,
        membersEverywhere_iff.mpr fun m hm => ?_⟩
      exact membersEverywhere_iff.mp (forall_membersToJson ih hentries) m
        (Dict.mem_of_mem_ofList hm)

theorem everywhere_isKept_of_parseWithin {levels : Nat} {text : String} {v : Json}
    (h : parseWithin levels text = .ok v) : v.Everywhere IsKept := by
  induction levels generalizing text v with
  | zero => cases h
  | succ levels ih =>
    rw [parseWithin] at h
    dsimp only at h
    split at h
    next => cases h
    next value hvalue =>
      have hkept := everywhere_isKept_of_toJson (fun _ _ h => ih (mapError_eq_ok.mp h))
        (inRange_document text) value hvalue
      split_ifs at h
      cases h
      exact hkept

theorem everywhere_isKept_of_parseEmbedded {text : String} {v : Json}
    (h : parseEmbedded text = .ok v) : v.Everywhere IsKept :=
  everywhere_isKept_of_parseWithin (mapError_eq_ok.mp h)

/-! ## Values from their documents -/

def IsFloat : Json → Prop
  | .num (.float _) => True
  | _ => False

def IsEmbedding : Json → Prop
  | .obj ((name, _) :: _) => name = Document.embeddedName
  | _ => False

def embedding (v : Json) : Json := .obj [(Document.embeddedName, .str v.text)]

theorem isExact_of_isKept {v : Json} (hkept : v.IsKept) (hfloat : ¬ v.IsFloat) : v.IsExact := by
  cases v with
  | num n =>
    cases n with
    | int => exact hkept
    | float => exact absurd trivial hfloat
  | _ => trivial

mutual

theorem everywhere_imp {r : Json → Prop} (himp : ∀ v, p v → q v → r v) (v : Json)
    (hp : v.Everywhere p) (hq : v.Everywhere q) : v.Everywhere r := by
  cases v with
  | arr items => exact ⟨himp _ hp.1 hq.1, itemsEverywhere_imp himp items hp.2 hq.2⟩
  | obj members => exact ⟨himp _ hp.1 hq.1, membersEverywhere_imp himp members hp.2 hq.2⟩
  | _ => exact himp _ hp hq

theorem itemsEverywhere_imp {r : Json → Prop} (himp : ∀ v, p v → q v → r v) (vs : List Json)
    (hp : ItemsEverywhere p vs) (hq : ItemsEverywhere q vs) : ItemsEverywhere r vs := by
  cases vs with
  | nil => trivial
  | cons v vs =>
    exact ⟨everywhere_imp himp v hp.1 hq.1, itemsEverywhere_imp himp vs hp.2 hq.2⟩

theorem membersEverywhere_imp {r : Json → Prop} (himp : ∀ v, p v → q v → r v)
    (ms : List (String × Json)) (hp : MembersEverywhere p ms) (hq : MembersEverywhere q ms) :
    MembersEverywhere r ms := by
  cases ms with
  | nil => trivial
  | cons m ms =>
    exact ⟨everywhere_imp himp m.2 hp.1 hq.1, membersEverywhere_imp himp ms hp.2 hq.2⟩

end

/-- A value that can be read where it is written: no object of it reads as a text inside the text,
and it is no deeper than a reader goes. -/
structure ReadsBack (depth : Nat) (v : Json) : Prop where
  plain : v.Everywhere fun v => ¬ v.IsEmbedding
  height_le : depth + v.height ≤ maxDepth

theorem embedded?_memberDocuments {depth : Nat} {ms : List (String × Json)}
    (h : ¬ (obj ms).IsEmbedding) : Document.embedded? (memberDocuments depth ms) = none := by
  cases ms with
  | nil => rfl
  | cons m ms => exact if_neg h

theorem toJson_ne_ok_of_embedding {depth : Nat} {ms : List (String × Json)} {w : Json}
    {stop : Option Stop} (hkept : (obj ms).IsKept) (h : (obj ms).IsEmbedding) :
    (Document.table (memberDocuments depth ms) stop).toJson parse .refused ≠ .ok w := by
  cases ms with
  | nil => exact absurd h id
  | cons m ms =>
    obtain ⟨k, v⟩ := m
    obtain rfl : k = Document.embeddedName := h
    cases ms with
    | nil => exact absurd rfl hkept.2
    | cons m ms =>
      intro hread
      rw [memberDocuments, Document.toJson, Document.embedded?, if_pos rfl] at hread
      obtain ⟨text, _, hread⟩ := bind_eq_ok.mp hread
      obtain ⟨value, _, hread⟩ := bind_eq_ok.mp hread
      cases hread

mutual

theorem toJson_toDocument (v : Json) {depth : Nat} {w : Json} (hdepth : depth ≤ maxDepth)
    (hkept : v.Everywhere IsKept) :
    (v.toDocument depth).toJson parse .refused = .ok w ↔ w = v ∧ v.ReadsBack depth := by
  have hflat : ∀ {v : Json}, v.height = 0 → v.Everywhere (fun v => ¬ v.IsEmbedding) →
      ((.ok v : Except Document.ReadError Json) = .ok w ↔ w = v ∧ v.ReadsBack depth) := by
    intro v hheight hplain
    have hback : v.ReadsBack depth := ⟨hplain, by omega⟩
    rw [and_iff_left hback, Except.ok.injEq, eq_comm]
  cases v with
  | null | bool | num | str => exact hflat rfl id
  | arr items =>
    by_cases hlt : depth + 1 ≤ maxDepth
    · rw [toDocument, if_pos hlt, Document.toJson, bind_eq_ok]
      simp only [itemsToJson_itemDocuments items hlt hkept.2, Document.finish_eq_ok]
      constructor
      · rintro ⟨values, ⟨rfl, hplain, hheight⟩, _, rfl⟩
        exact ⟨rfl, ⟨id, hplain⟩, by rw [height]; omega⟩
      · rintro ⟨rfl, hreads⟩
        have hheight := hreads.height_le
        rw [height] at hheight
        exact ⟨items, ⟨rfl, hreads.plain.2, by omega⟩, trivial, rfl⟩
    · rw [toDocument, if_neg hlt]
      refine iff_of_false nofun fun h => ?_
      have hheight := h.2.height_le
      rw [height] at hheight
      omega
  | obj members =>
    by_cases hlt : depth + 1 ≤ maxDepth
    · rw [toDocument, if_pos hlt]
      by_cases hembedding : (obj members).IsEmbedding
      · exact iff_of_false (toJson_ne_ok_of_embedding hkept.1 hembedding)
          fun h => h.2.plain.1 hembedding
      · rw [Document.toJson, embedded?_memberDocuments hembedding]
        dsimp only
        rw [bind_eq_ok]
        simp only [membersToJson_memberDocuments members hlt hkept.2, Document.finish_eq_ok]
        have hobject : object members = obj members :=
          congrArg obj (Dict.ofList_of_ordered hkept.1.1)
        constructor
        · rintro ⟨entries, ⟨rfl, hplain, hheight⟩, _, rfl⟩
          exact ⟨hobject, ⟨hembedding, hplain⟩, by rw [height]; omega⟩
        · rintro ⟨rfl, hreads⟩
          have hheight := hreads.height_le
          rw [height] at hheight
          exact ⟨members, ⟨rfl, hreads.plain.2, by omega⟩, trivial, hobject⟩
    · rw [toDocument, if_neg hlt]
      refine iff_of_false nofun fun h => ?_
      have hheight := h.2.height_le
      rw [height] at hheight
      omega

theorem itemsToJson_itemDocuments (vs : List Json) {depth : Nat} {ws : List Json}
    (hdepth : depth ≤ maxDepth) (hkept : ItemsEverywhere IsKept vs) :
    Document.itemsToJson parse .refused (itemDocuments depth vs) = .ok ws ↔
      ws = vs ∧ ItemsEverywhere (fun v => ¬ v.IsEmbedding) vs ∧
        depth + itemsHeight vs ≤ maxDepth := by
  cases vs with
  | nil =>
    exact ⟨fun h => ⟨(Except.ok.inj h).symm, trivial, hdepth⟩, fun h => congrArg _ h.1.symm⟩
  | cons v vs =>
    rw [itemDocuments, Document.itemsToJson, bind_eq_ok, itemsHeight]
    simp only [bind_eq_ok, toJson_toDocument v hdepth hkept.1,
      itemsToJson_itemDocuments vs hdepth hkept.2, Except.ok.injEq]
    constructor
    · rintro ⟨_, ⟨rfl, hv⟩, _, ⟨rfl, hvs, hheight⟩, rfl⟩
      have hv' := hv.height_le
      exact ⟨rfl, ⟨hv.plain, hvs⟩, by omega⟩
    · rintro ⟨rfl, ⟨hv, hvs⟩, hheight⟩
      exact ⟨v, ⟨rfl, hv, by omega⟩, vs, ⟨rfl, hvs, by omega⟩, rfl⟩

theorem membersToJson_memberDocuments (ms : List (String × Json)) {depth : Nat}
    {entries : List (String × Json)} (hdepth : depth ≤ maxDepth)
    (hkept : MembersEverywhere IsKept ms) :
    Document.membersToJson parse .refused (memberDocuments depth ms) = .ok entries ↔
      entries = ms ∧ MembersEverywhere (fun v => ¬ v.IsEmbedding) ms ∧
        depth + membersHeight ms ≤ maxDepth := by
  cases ms with
  | nil =>
    exact ⟨fun h => ⟨(Except.ok.inj h).symm, trivial, hdepth⟩, fun h => congrArg _ h.1.symm⟩
  | cons m ms =>
    obtain ⟨k, v⟩ := m
    rw [memberDocuments, Document.membersToJson, bind_eq_ok, membersHeight]
    simp only [bind_eq_ok, toJson_toDocument v hdepth hkept.1,
      membersToJson_memberDocuments ms hdepth hkept.2, Except.ok.injEq]
    constructor
    · rintro ⟨_, hk, _, ⟨rfl, hv⟩, _, ⟨rfl, hms, hheight⟩, rfl⟩
      have hv' := hv.height_le
      obtain rfl := Except.ok.inj (mapError_eq_ok.mp hk)
      exact ⟨rfl, ⟨hv.plain, hms⟩, by omega⟩
    · rintro ⟨rfl, ⟨hv, hms⟩, hheight⟩
      exact ⟨k, rfl, v, ⟨rfl, hv, by omega⟩, ms, ⟨rfl, hms, by omega⟩, rfl⟩

end

theorem parse_text {v w : Json} (hexact : v.Everywhere IsExact) (hkept : v.Everywhere IsKept) :
    Json.parse v.text = .ok w ↔ w = v ∧ v.ReadsBack 0 := by
  rw [Json.parse, parseWithin, document_text hexact]
  dsimp only
  rw [← toJson_toDocument v (Nat.zero_le _) hkept]
  cases (v.toDocument 0).toJson _ .refused <;> simp

theorem toJson_embedding {v : Json} {depth : Nat} (hexact : v.Everywhere IsExact)
    (hkept : v.Everywhere IsKept) (hback : v.ReadsBack 0) (hdepth : depth + 1 ≤ maxDepth) :
    ((embedding v).toDocument depth).toJson parseEmbedded .refused = .ok v := by
  have hparse : parseEmbedded v.text = .ok v :=
    mapError_eq_ok.mpr ((parse_text hexact hkept).mpr ⟨rfl, hback⟩)
  rw [embedding, toDocument, if_pos hdepth, memberDocuments, Document.toJson, Document.embedded?,
    if_pos rfl]
  exact bind_eq_ok.mpr ⟨v.text, rfl, bind_eq_ok.mpr ⟨v, mapError_eq_ok.mpr hparse, rfl⟩⟩

end Json
end ApiGateway
