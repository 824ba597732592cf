import ApiGateway.Proofs.Condition.Reference
import ApiGateway.Proofs.Http.Casing

/-! What an evaluation depends on. Which fields are looked up is settled by the answers so far, so
that a view which answers as another one did is asked for the same fields in the same order, and
whatever else is different about it does not show. -/

namespace ApiGateway

namespace View

def Answers (view other : View) (fields : List Field) : Prop :=
  ∀ field ∈ fields, other.answer field = view.answer field

/-- The other view resolves fields as the first one does, which its answers may do though they
differ. -/
def ResolvesAlike (view other : View) (fields : List Field) : Prop :=
  ∀ field ∈ fields, other.resolve field = view.resolve field

variable {view other : View} {field : Field} {fields front back : List Field}

theorem resolvesAlike_append :
    view.ResolvesAlike other (front ++ back) ↔
      view.ResolvesAlike other front ∧ view.ResolvesAlike other back :=
  List.forall_mem_append

theorem resolvesAlike_singleton :
    view.ResolvesAlike other [field] ↔ other.resolve field = view.resolve field :=
  List.forall_mem_singleton

theorem resolve_congr (h : other.answer field = view.answer field) :
    other.resolve field = view.resolve field := congrArg field.read h

theorem Answers.resolvesAlike (h : view.Answers other fields) : view.ResolvesAlike other fields :=
  fun field hfield => resolve_congr (h field hfield)

theorem method_eq_of_resolve (h : other.resolve .method = view.resolve .method) :
    other.method = view.method := Method.text_inj (Except.ok.inj h)

theorem path_eq_of_resolve (h : other.resolve .path = view.resolve .path) :
    other.path = view.path := Except.ok.inj h

end View

namespace Condition

variable {view other : View}

theorem combine_references_congr {neutral : Bool} {items : List Condition}
    (hitems : ∀ item ∈ items, view.ResolvesAlike other (item.reference view).lookups →
      item.reference other = item.reference view)
    (h : view.ResolvesAlike other (Evaluation.combine neutral (references view items)).lookups) :
    Evaluation.combine neutral (references other items) =
      Evaluation.combine neutral (references view items) := by
  -- operands past the one that decides may well come out differently for the other view: neither of
  -- the two evaluations gets there
  induction items with
  | nil => rfl
  | cons item rest ih =>
    obtain ⟨hitem, hrest⟩ := List.forall_mem_cons.mp hitems
    rw [references] at h
    rw [references, references]
    cases hneutral : (item.reference view).isNeutral neutral with
    | true =>
      rw [Evaluation.combine_cons_of_isNeutral hneutral] at h
      simp only [Evaluation.lookups, List.flatMap_append] at h
      obtain ⟨hfirst, hlater⟩ := View.resolvesAlike_append.mp h
      rw [hitem hfirst, Evaluation.combine_cons_of_isNeutral hneutral,
        Evaluation.combine_cons_of_isNeutral hneutral, ih hrest hlater]
    | false =>
      rw [Evaluation.combine_cons_of_not_isNeutral hneutral] at h
      rw [hitem h, Evaluation.combine_cons_of_not_isNeutral hneutral,
        Evaluation.combine_cons_of_not_isNeutral hneutral]

theorem reference_congr {c : Condition} (h : view.ResolvesAlike other (c.reference view).lookups) :
    c.reference other = c.reference view := by
  induction c with
  | always | never => rfl
  | all items ih | any items ih => exact combine_references_congr ih h
  | negate item ih => exact congrArg Evaluation.negated (ih h)
  | equals field value => rw [reference, reference, View.resolvesAlike_singleton.mp h]
  | present field => rw [reference, reference, View.resolvesAlike_singleton.mp h]
  | method methods =>
    rw [reference, reference, View.method_eq_of_resolve (View.resolvesAlike_singleton.mp h)]
  | pathExact path =>
    rw [reference, reference, View.path_eq_of_resolve (View.resolvesAlike_singleton.mp h)]
  | pathPrefix start =>
    rw [reference, reference, View.path_eq_of_resolve (View.resolvesAlike_singleton.mp h)]

theorem observe_eq_of_resolvesAlike {c : Condition}
    (h : view.ResolvesAlike other (c.observe view []).2) :
    c.observe other [] = c.observe view [] := by
  rw [observe_eq, List.nil_append] at h
  rw [observe_eq, observe_eq, reference_congr h]

theorem observe_congr {c : Condition} (h : view.Answers other (c.observe view []).2) :
    c.observe other [] = c.observe view [] := observe_eq_of_resolvesAlike h.resolvesAlike

end Condition

/-! ## Requests -/

inductive Edit where
  | method (m : Method)
  | uri (u : Uri)
  | target (path : PathQuery)
  | authority (a : Option String)
  | setHeader (name : HeaderName) (value : HeaderValue)
  | removeHeader (name : HeaderName)
  | setField (name value : String)

namespace Edit

def apply : Edit → Request → Request
  | .method m, r => { r with method := m }
  | .uri u, r => { r with uri := u }
  | .target path, r => { r with uri := { r.uri with target := path } }
  | .authority a, r => { r with uri := { r.uri with authority := a } }
  | .setHeader name value, r => { r with headers := r.headers.set name value }
  | .removeHeader name, r => { r with headers := r.headers.remove name }
  | .setField name value, r => r.setField name value

def headerFields (name : HeaderName) : List Field :=
  if name = .host then [.header name, .host] else [.header name]

/-- The only lookups by which the change can be seen. -/
def touched : Edit → List Field
  | .method _ => [.method]
  | .uri _ => [.path, .host]
  | .target _ => [.path]
  | .authority _ => [.host]
  | .setHeader name _ => headerFields name
  | .removeHeader name => headerFields name
  | .setField name _ => [.context name]

variable {edit : Edit} {edits : List Edit} {r : Request} {field : Field} {name : HeaderName}

theorem answer_headers {headers : Headers} (h : field ∉ headerFields name)
    (hget : ∀ other, other ≠ name → headers.get? other = r.headers.get? other) :
    ({ r with headers } : Request).view.answer field = r.view.answer field := by
  have hheader : field ≠ .header name := by
    rintro rfl
    unfold headerFields at h
    split at h <;> exact h List.mem_cons_self
  cases field with
  | header other => exact hget other fun heq => hheader (heq ▸ rfl)
  | host =>
    have hname : HeaderName.host ≠ name := by
      rintro rfl
      exact h (by decide)
    have hhost : ({ r with headers } : Request).host? = r.host? := by
      simp only [Request.host?, hget .host hname]
    exact hhost
  | method | path | context => rfl

theorem answer_apply (h : field ∉ edit.touched) :
    (edit.apply r).view.answer field = r.view.answer field := by
  cases edit with
  | method =>
    cases field with
    | method => exact absurd List.mem_cons_self h
    | _ => rfl
  | uri =>
    cases field with
    | path => exact absurd List.mem_cons_self h
    | host => exact absurd (List.mem_cons_of_mem _ List.mem_cons_self) h
    | _ => rfl
  | target =>
    cases field with
    | path => exact absurd List.mem_cons_self h
    | _ => rfl
  | authority =>
    cases field with
    | host => exact absurd List.mem_cons_self h
    | _ => rfl
  | setHeader => exact answer_headers h fun _ => Headers.get?_set_of_ne
  | removeHeader => exact answer_headers h fun _ => Headers.get?_remove_of_ne
  | setField name value =>
    cases field with
    | context other =>
      have hother : other ≠ name := by
        rintro rfl
        exact h List.mem_cons_self
      exact (Dict.find?_insert name other value r.fields).trans (if_neg hother)
    | _ => rfl

end Edit

def Request.edited (r : Request) (edits : List Edit) : Request :=
  edits.foldl (fun r edit => edit.apply r) r

theorem Request.answer_edited {edits : List Edit} {r : Request} {field : Field}
    (h : ∀ edit ∈ edits, field ∉ edit.touched) :
    (r.edited edits).view.answer field = r.view.answer field := by
  induction edits generalizing r with
  | nil => rfl
  | cons edit rest ih =>
    obtain ⟨hedit, hrest⟩ := List.forall_mem_cons.mp h
    exact (ih hrest).trans (Edit.answer_apply hedit)

namespace Condition

/-- A view that gives the same answers to everything an evaluation looked up is asked the same, in
the same order, and comes to the same result. For a request this means that it may be edited
wherever the evaluation did not look, and that includes what only operands name that were passed
over. -/
theorem observe_depends_on_lookups (c : Condition) (view : View) :
    (∀ other, view.Answers other (c.observe view []).2 →
      c.observe other [] = c.observe view [] ∧ c.evaluate other = c.evaluate view) ∧
    ∀ (r : Request) (edits : List Edit),
      (∀ edit ∈ edits, ∀ field ∈ edit.touched, field ∉ (c.observe r.view []).2) →
        c.observe (r.edited edits).view [] = c.observe r.view [] ∧
          c.evaluate (r.edited edits).view = c.evaluate r.view := by
  have hdepends : ∀ view other, view.Answers other (c.observe view []).2 →
      c.observe other [] = c.observe view [] ∧ c.evaluate other = c.evaluate view := by
    intro view other h
    have hobserve := observe_congr h
    refine ⟨hobserve, ?_⟩
    rw [← fst_observe other c [], hobserve, fst_observe]
  refine ⟨hdepends view, fun r edits hedits => hdepends r.view _ fun field hfield => ?_⟩
  exact Request.answer_edited fun edit hedit htouched => hedits edit hedit field htouched hfield

theorem observe_depends_on_lookups_passing_over :
    let c := (Condition.method [.get]).or (.equals (.header .requestId) "1")
    let r := Request.ofUri .root
    let edits : List Edit := [.setHeader .requestId ⟨[0x32], by decide⟩, .setField "user" "alice"]
    (∀ edit ∈ edits, ∀ field ∈ edit.touched, field ∉ (c.observe r.view []).2) ∧
      c.observe (r.edited edits).view [] = (.ok true, [.method]) := by
  intro c r edits
  have hunseen : ∀ edit ∈ edits, ∀ field ∈ edit.touched, field ∉ (c.observe r.view []).2 := by
    decide
  exact ⟨hunseen, ((observe_depends_on_lookups c r.view).2 r edits hunseen).1.trans rfl⟩

end Condition
end ApiGateway
