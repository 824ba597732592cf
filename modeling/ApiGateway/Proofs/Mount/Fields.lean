import ApiGateway.Proofs.Mount.Alteration

/-! Fields that handlers leave on a request. A field lives through steps and mounts until a later
handler writes it again, so that at every condition it has the value that was written last. -/

namespace ApiGateway

inductive Change where
  | setField (name value : String)
  | setUri (uri : Uri)
  | setHeaders (headers : Headers)

namespace Change

def write? (name : String) : Change → Option String
  | .setField written value => if written = name then some value else none
  | _ => none

def lastWrite? (name : String) (changes : List Change) : Option String :=
  changes.reverse.findSome? (write? name)

theorem lastWrite?_append (name : String) (changes more : List Change) :
    lastWrite? name (changes ++ more) = (lastWrite? name more).or (lastWrite? name changes) := by
  rw [lastWrite?, List.reverse_append, List.findSome?_append]
  rfl

theorem lastWrite?_cons (name : String) (change : Change) (changes : List Change) :
    lastWrite? name (change :: changes) = (lastWrite? name changes).or (change.write? name) := by
  have hone : lastWrite? name [change] = change.write? name := by
    rw [lastWrite?, List.reverse_singleton, List.findSome?_singleton]
  rw [← List.singleton_append, lastWrite?_append, hone]

theorem lastWrite?_of_last {name value : String} (changes : List Change) {later : List Change}
    (h : lastWrite? name later = none) :
    lastWrite? name (changes ++ .setField name value :: later) = some value := by
  rw [lastWrite?_append, lastWrite?_cons, h, Option.none_or, write?, if_pos rfl, Option.some_or]

theorem lastWrite?_eq_none {name : String} {changes : List Change} :
    lastWrite? name changes = none ↔ ∀ value, .setField name value ∉ changes := by
  rw [lastWrite?, List.findSome?_eq_none_iff]
  constructor
  · intro h value hmem
    have hwrite := h _ (List.mem_reverse.mpr hmem)
    rw [write?, if_pos rfl] at hwrite
    cases hwrite
  · intro h change hmem
    cases change with
    | setField written value =>
      refine if_neg ?_
      rintro rfl
      exact h value (List.mem_reverse.mp hmem)
    | setUri | setHeaders => rfl

end Change

namespace Request

def change (r : Request) : Change → Request
  | .setField name value => r.setField name value
  | .setUri uri => { r with uri }
  | .setHeaders headers => { r with headers }

def changed (r : Request) (changes : List Change) : Request := changes.foldl change r

variable {r : Request}

theorem find?_change (name : String) (e : Change) :
    Dict.find? name (r.change e).fields = (e.write? name).or (Dict.find? name r.fields) := by
  cases e with
  | setField written value =>
    simp only [change, setField, Change.write?, Dict.find?_insert]
    by_cases h : name = written
    · rw [if_pos h, if_pos h.symm, Option.some_or]
    · rw [if_neg h, if_neg (Ne.symm h), Option.none_or]
  | setUri | setHeaders => rfl

theorem place_change (e : Change) :
    (r.change e).arrivalUri = r.arrivalUri ∧ (r.change e).mountPath = r.mountPath := by
  cases e <;> exact ⟨rfl, rfl⟩

theorem find?_changed (name : String) (changes : List Change) :
    Dict.find? name (r.changed changes).fields =
      (Change.lastWrite? name changes).or (Dict.find? name r.fields) := by
  induction changes generalizing r with
  | nil => rfl
  | cons e changes ih =>
    change Dict.find? name ((r.change e).changed changes).fields = _
    rw [ih, find?_change, Change.lastWrite?_cons, Option.or_assoc]

theorem place_changed (changes : List Change) :
    (r.changed changes).arrivalUri = r.arrivalUri ∧ (r.changed changes).mountPath = r.mountPath := by
  induction changes generalizing r with
  | nil => exact ⟨rfl, rfl⟩
  | cons e changes ih =>
    have hchange := r.place_change e
    have hchanged := ih (r := r.change e)
    exact ⟨hchanged.1.trans hchange.1, hchanged.2.trans hchange.2⟩

theorem resolve_context (r : Request) (name : String) :
    r.view.resolve (.context name) =
      match Dict.find? name r.fields with
      | some value => .ok value
      | none => .error (.missingField name) := rfl

theorem resolve_setField (r : Request) (name value other : String) :
    (r.setField name value).view.resolve (.context other) =
      if other = name then .ok value else r.view.resolve (.context other) := by
  rw [resolve_context, resolve_context, setField, Dict.find?_insert]
  by_cases h : other = name
  · rw [if_pos h, if_pos h]
  · rw [if_neg h, if_neg h]

end Request

abbrev Script := Nat → Nat → Request → List Change

def Script.made (script : Script) (visits : List (Nat × Visit)) : List Change :=
  (visits.filter fun visit => visit.2.called).flatMap fun call =>
    script call.1 call.2.step call.2.request

namespace Table

/-- Handlers that hand a request on hand on the one that they were given, changed. -/
def Follows (table : Table) (script : Script) : Prop :=
  ∀ position index (mount : Mount) (step : Step), table[position]? = some mount →
    mount.chain.steps[index]? = some step → ∀ (q : Request) delay next,
      step.handler q = .settle delay (.ok (.pass next)) →
        next = q.changed (script position index q)

/-- What holds at a point of a walk after some visits: the fields are those of the request that
arrived and what has been written since, the URI on record is the first one, and inside a mount the
request has its path. -/
structure Kept (table : Table) (script : Script) (r : Request) (seen : List (Nat × Visit))
    (w : Waypoint) : Prop where
  field (name : String) : Dict.find? name w.request.fields =
    (Change.lastWrite? name (script.made seen)).or (Dict.find? name r.fields)
  arrivalUri : w.request.arrivalUri = r.arrivalUri.or (some r.uri)
  mountPath {position index q time} (h : w = .step position index q time) :
    ∃ mount : Mount, table[position]? = some mount ∧
      q.mountPath = some mount.endpoint.mountPath.text

variable {table : Table} {script : Script} {r : Request} {w next : Waypoint}
  {seen : List (Nat × Visit)}

theorem made_append (script : Script) (seen more : List (Nat × Visit)) :
    script.made (seen ++ more) = script.made seen ++ script.made more := by
  rw [Script.made, List.filter_append, List.flatMap_append]
  rfl

theorem kept_start (table : Table) (script : Script) (r : Request) :
    table.Kept script r [] (.mount 0 r.recorded 0) := ⟨fun _ => rfl, rfl, nofun⟩

theorem Kept.moves (h : table.Kept script r seen w) (hfollows : table.Follows script)
    (hmove : table.Moves r.uri w next) : table.Kept script r (seen ++ table.visitsAt w) next := by
  cases hmove with
  | pass =>
    rw [visitsAt, List.append_nil]
    exact ⟨h.field, h.arrivalUri, fun hinside => by cases hinside⟩
  | enter hmount =>
    rw [visitsAt, List.append_nil]
    refine ⟨h.field, h.arrivalUri, ?_⟩
    rintro _ _ _ _ ⟨⟩
    exact ⟨_, hmount, rfl⟩
  | @skip position index q time step mount hmount hstep hfalse =>
    -- a step that is passed over makes no changes
    have hmade : script.made (table.visitsAt (.step position index q time)) = [] := by
      rw [visitsAt_step hmount hstep, Step.takes, hfalse]
      rfl
    refine ⟨fun name => ?_, h.arrivalUri, ?_⟩
    · rw [made_append, hmade, List.append_nil]
      exact h.field name
    · rintro _ _ _ _ ⟨⟩
      exact h.mountPath rfl
  | @hand position index q time step delay next mount hmount hstep htrue hpass =>
    have hmade : script.made (table.visitsAt (.step position index q time)) =
        script position index q := by
      rw [visitsAt_step hmount hstep, takes_iff.mpr htrue]
      exact List.append_nil _
    obtain rfl := hfollows position index mount step hmount hstep q delay next hpass
    refine ⟨fun name => ?_, ?_, ?_⟩
    · rw [made_append, hmade, Change.lastWrite?_append, Option.or_assoc, ← h.field name]
      exact Request.find?_changed name _
    · exact (Request.place_changed _).1.trans h.arrivalUri
    · rintro _ _ _ _ ⟨⟩
      rw [(Request.place_changed _).2]
      exact h.mountPath rfl
  | @leave position q time mount hmount =>
    have hnone : table.visitsAt (.step position mount.chain.steps.length q time) = [] := by
      simp only [visitsAt, hmount, Option.bind_some, List.getElem?_eq_none (Nat.le_refl _)]
    rw [hnone, List.append_nil]
    exact ⟨h.field, h.arrivalUri, fun hinside => by cases hinside⟩

theorem split_visitsAt {rest before after : List (Nat × Visit)} {visit : Nat × Visit}
    (h : table.visitsAt w ++ rest = before ++ visit :: after) :
    (before = [] ∧ w = .step visit.1 visit.2.step visit.2.request visit.2.time) ∨
      ∃ later, before = table.visitsAt w ++ later ∧ rest = later ++ visit :: after := by
  cases w with
  | mount => exact Or.inr ⟨before, rfl, h⟩
  | step position index q time =>
    simp only [visitsAt] at h ⊢
    split at h
    next step _ =>
      rcases List.cons_eq_append_iff.mp h with ⟨rfl, hfirst⟩ | ⟨later, rfl, hrest⟩
      · obtain ⟨rfl, -⟩ := List.cons.inj hfirst
        exact Or.inl ⟨rfl, rfl⟩
      · exact Or.inr ⟨later, rfl, hrest⟩
    next => exact Or.inr ⟨before, rfl, h⟩

theorem kept_of_visits (hfollows : table.Follows script) {before after : List (Nat × Visit)}
    {visit : Nat × Visit} (hvisits : (table.dispatch none r).visits = before ++ visit :: after) :
    table.Kept script r before (.step visit.1 visit.2.step visit.2.request visit.2.time) := by
  refine Reaches.resume_induction
    (motive := fun w d => ∀ seen, table.Kept script r seen w → ∀ before visit after,
      d.visits = before ++ visit :: after → table.Kept script r (seen ++ before)
        (.step visit.1 visit.2.step visit.2.request visit.2.time))
    (fun _ _ seen hkept before visit after h => ?_)
    (fun _ hmove ih seen hkept before visit after h => ?_)
    .start [] (kept_start table script r) before visit after hvisits
  · rcases split_visitsAt ((List.append_nil _).trans h) with ⟨rfl, hw⟩ | ⟨later, -, hnone⟩
    · rw [List.append_nil, ← hw]
      exact hkept
    · exact absurd hnone.symm (List.append_ne_nil_of_right_ne_nil _ (List.cons_ne_nil _ _))
  · rcases split_visitsAt h with ⟨rfl, hw⟩ | ⟨later, rfl, hlater⟩
    · rw [List.append_nil, ← hw]
      exact hkept
    · rw [← List.append_assoc]
      exact ih _ (hkept.moves hfollows hmove) later visit after hlater

/-- At every condition of a dispatch a context field has the value that the handlers called before
have written under its name last, at the same mount or at an earlier one, or else the one that the
request arrived with, and it is missing exactly if there is neither. The URI on record and the path
of the mount are there all along. Writing a field changes no other field and neither of these. -/
theorem dispatch_reads_last_write (r : Request) (hfollows : table.Follows script) :
    (∀ before visit after, (table.dispatch none r).visits = before ++ visit :: after →
      let resolved (name : String) := visit.2.request.view.resolve (.context name)
      (∀ name value earlier later,
        script.made before = earlier ++ .setField name value :: later →
          (∀ value, .setField name value ∉ later) → resolved name = .ok value) ∧
      (∀ name, (∀ value, .setField name value ∉ script.made before) →
        ∀ value, Dict.find? name r.fields = some value → resolved name = .ok value) ∧
      (∀ name, resolved name = .error (.missingField name) ↔
        (∀ value, .setField name value ∉ script.made before) ∧ Dict.find? name r.fields = none) ∧
      visit.2.request.arrivalUri = r.arrivalUri.or (some r.uri) ∧
      ∃ mount, table[visit.1]? = some mount ∧
        visit.2.request.mountPath = some mount.endpoint.mountPath.text) ∧
    ∀ (q : Request) (name value other : String),
      (q.setField name value).view.resolve (.context other) =
          (if other = name then .ok value else q.view.resolve (.context other)) ∧
        (q.setField name value).arrivalUri = q.arrivalUri ∧
        (q.setField name value).mountPath = q.mountPath := by
  refine ⟨fun before visit after hvisits => ?_,
    fun q name value other => ⟨q.resolve_setField name value other, rfl, rfl⟩⟩
  have hkept := kept_of_visits hfollows hvisits
  intro resolved
  have hresolved : ∀ name, resolved name =
      match (Change.lastWrite? name (script.made before)).or (Dict.find? name r.fields) with
      | some value => .ok value
      | none => .error (.missingField name) := by
    intro name
    rw [← hkept.field name]
    rfl
  refine ⟨fun name value earlier later hmade hlast => ?_, fun name hnone value hpreset => ?_,
    fun name => ?_, hkept.arrivalUri, hkept.mountPath rfl⟩
  · rw [hresolved, hmade, Change.lastWrite?_of_last _ (Change.lastWrite?_eq_none.mpr hlast),
      Option.some_or]
  · rw [hresolved, Change.lastWrite?_eq_none.mpr hnone, Option.none_or, hpreset]
  · rw [hresolved, ← Change.lastWrite?_eq_none, ← Option.or_eq_none_iff]
    cases (Change.lastWrite? name (script.made before)).or (Dict.find? name r.fields) with
    | none => exact iff_of_true rfl rfl
    | some value => exact iff_of_false nofun nofun

/-! Two mounts. The chain at the first writes one field twice and a field of its own, and goes
astray with the URI; the chain at the second looks at the fields. -/

def scribbling : Script
  | 0, 0, _ => [.setField "user" "alice", .setUri .root, .setField "user" "bob"]
  | 0, 1, _ => [.setField "stage" "checked", .setHeaders []]
  | _, _, _ => []

def scribbled (position index : Nat) : Step :=
  ⟨"scribble", .always, fun q => .pass (q.changed (scribbling position index q))⟩

def scribblers : Table :=
  [⟨⟨"/api", none⟩, "first", [scribbled 0 0, scribbled 0 1]⟩, ⟨⟨"/", none⟩, "last", [scribbled 1 0]⟩]

theorem follows_scribblers : scribblers.Follows scribbling := by
  intro position index mount step hmount hstep q delay next hpass
  match position, index with
  | 0, 0 | 0, 1 | 1, 0 =>
    cases hmount
    cases hstep
    cases hpass
    rfl
  | 0, _ + 2 | 1, _ + 1 =>
    cases hmount
    cases hstep
  | _ + 2, _ => cases hmount

def preset : Request :=
  { Request.ofUri ⟨none, none, ⟨"/api/x", none⟩⟩ with fields := [("tier", "gold")] }

theorem dispatch_reads_last_write_scribbled :
    scribblers.Follows scribbling ∧
      ∃ before visit, (scribblers.dispatch none preset).visits = before ++ [visit] ∧
        visit.1 = 1 ∧
        visit.2.request.view.resolve (.context "user") = .ok "bob" ∧
        visit.2.request.view.resolve (.context "tier") = .ok "gold" ∧
        visit.2.request.view.resolve (.context "role") = .error (.missingField "role") := by
  have hne : (scribblers.dispatch none preset).visits ≠ [] := List.cons_ne_nil _ _
  have hvisits := (List.dropLast_concat_getLast hne).symm
  have hmade : scribbling.made (scribblers.dispatch none preset).visits.dropLast =
      [.setField "user" "alice", .setUri .root, .setField "user" "bob",
        .setField "stage" "checked", .setHeaders []] := rfl
  obtain ⟨hwritten, hpreset, hmissing, -⟩ :=
    (dispatch_reads_last_write preset follows_scribblers).1 _ _ _ hvisits
  refine ⟨follows_scribblers, _, _, hvisits, rfl, ?_, ?_, ?_⟩
  · exact hwritten "user" "bob" [.setField "user" "alice", .setUri .root] _ hmade (by simp)
  · exact hpreset "tier" (by simp [hmade]) "gold" rfl
  · exact (hmissing "role").mpr ⟨by simp [hmade], rfl⟩

end Table
end ApiGateway
