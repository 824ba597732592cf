import ApiGateway.Proofs.Condition.Reference

/-! Errors of conditions. Only a comparison fails, and the first one reached that fails is the last
leaf reached at all. -/

namespace ApiGateway

def View.Resolves (view : View) (leaves : List Condition) : Prop :=
  ∀ field value, .equals field value ∈ leaves → ∃ text, view.resolve field = .ok text

namespace View.Resolves

variable {view : View} {a b : List Condition}

theorem nil (view : View) : view.Resolves [] := by
  intro field value hmem
  cases hmem

theorem append (ha : view.Resolves a) (hb : view.Resolves b) : view.Resolves (a ++ b) := by
  intro field value h
  rcases List.mem_append.mp h with h | h
  · exact ha field value h
  · exact hb field value h

theorem not_mem {field value e} (ha : view.Resolves a) (hfault : view.resolve field = .error e) :
    .equals field value ∉ a := by
  intro hmem
  obtain ⟨text, htext⟩ := ha field value hmem
  rw [hfault] at htext
  cases htext

end View.Resolves

namespace Evaluation

/-- The result follows from the leaves reached: a value if every field compared is there, and else
the error of the one comparison that fails, at which the evaluation stops. -/
inductive Traced (view : View) : Evaluation → Prop
  | decided (value : Bool) {leaves : List Condition} (h : view.Resolves leaves) :
    Traced view ⟨.ok value, leaves⟩
  | stopped {before : List Condition} {field : Field} (value : String) {e : EvaluationError}
    (h : view.Resolves before) (hfault : view.resolve field = .error e) :
    Traced view ⟨.error e, before ++ [.equals field value]⟩

namespace Traced

variable {view : View} {ev : Evaluation}

theorem resolves {value : Bool} (h : ev.Traced view) (hok : ev.result = .ok value) :
    view.Resolves ev.leaves := by
  cases h with
  | decided _ h => exact h
  | stopped => cases hok

theorem prepend {before : List Condition} (hbefore : view.Resolves before) (h : ev.Traced view) :
    Traced view ⟨ev.result, before ++ ev.leaves⟩ := by
  cases h with
  | decided value h => exact .decided value (hbefore.append h)
  | stopped value h hfault =>
    rw [← List.append_assoc]
    exact .stopped value (hbefore.append h) hfault

theorem negated (h : ev.Traced view) : ev.negated.Traced view := by
  cases h with
  | decided value h => exact .decided (!value) h
  | stopped value h hfault => exact .stopped value h hfault

theorem combine (neutral : Bool) {operands : List Evaluation}
    (h : ∀ e ∈ operands, e.Traced view) : (combine neutral operands).Traced view := by
  induction operands with
  | nil => exact .decided neutral (.nil view)
  | cons e rest ih =>
    obtain ⟨he, hrest⟩ := List.forall_mem_cons.mp h
    cases hneutral : e.isNeutral neutral with
    | true =>
      rw [combine_cons_of_isNeutral hneutral]
      exact (ih hrest).prepend (he.resolves (isNeutral_iff.mp hneutral))
    | false =>
      rw [combine_cons_of_not_isNeutral hneutral]
      exact he

theorem stops {before after : List Condition} {field value e} (h : ev.Traced view)
    (hleaves : ev.leaves = before ++ .equals field value :: after)
    (hfault : view.resolve field = .error e) : ev.result = .error e ∧ after = [] := by
  cases h with
  | decided _ h =>
    exact absurd (hleaves ▸ List.mem_append_right _ List.mem_cons_self) (h.not_mem hfault)
  | @stopped before' field' value' e' h hfault' =>
    rcases after.eq_nil_or_concat with rfl | ⟨init, last, rfl⟩
    · obtain ⟨-, hlast⟩ := List.append_inj' hleaves rfl
      obtain ⟨rfl, rfl⟩ := Condition.equals.inj (List.cons.inj hlast).1
      rw [hfault] at hfault'
      exact ⟨congrArg _ (Except.error.inj hfault'.symm), rfl⟩
    · -- a leaf after it would put it among those that are known to resolve
      rw [List.concat_eq_append] at hleaves
      have hsplit : before' ++ [.equals field' value'] =
          (before ++ .equals field value :: init) ++ [last] := by
        rw [List.append_assoc, List.cons_append]
        exact hleaves
      obtain ⟨rfl, -⟩ := List.append_inj' hsplit rfl
      exact absurd (List.mem_append_right _ List.mem_cons_self) (h.not_mem hfault)

theorem result_eq_error_iff {e : EvaluationError} (h : ev.Traced view) :
    ev.result = .error e ↔
      ∃ before field value after, ev.leaves = before ++ .equals field value :: after ∧
        view.resolve field = .error e ∧ view.Resolves before := by
  constructor
  · intro herror
    cases h with
    | decided => cases herror
    | stopped value h hfault => exact ⟨_, _, value, [], rfl, Except.error.inj herror ▸ hfault, h⟩
  · rintro ⟨before, field, value, after, hleaves, hfault, -⟩
    exact (h.stops hleaves hfault).1

end Traced
end Evaluation

namespace Condition

theorem resolves_singleton {view : View} {leaf : Condition}
    (hleaf : ∀ field value, leaf ≠ .equals field value) : view.Resolves [leaf] := by
  intro field value hmem
  exact absurd (List.mem_singleton.mp hmem).symm (hleaf field value)

theorem traced_equals (view : View) (field : Field) (value : String) :
    (reference view (.equals field value)).Traced view := by
  rw [reference]
  cases h : view.resolve field with
  | ok text =>
    refine .decided _ fun field' value' hmem => ⟨text, ?_⟩
    obtain ⟨rfl, -⟩ := equals.inj (List.mem_singleton.mp hmem)
    exact h
  | error e => exact .stopped value (.nil view) h

theorem traced_reference (view : View) (c : Condition) : (c.reference view).Traced view := by
  induction c with
  | all items ih | any items ih =>
    apply Evaluation.Traced.combine
    rw [references_eq_map]
    exact List.forall_mem_map.mpr ih
  | negate item ih => exact ih.negated
  | equals field value => exact traced_equals view field value
  | always | never | present | method | pathExact | pathPrefix =>
    exact .decided _ (resolves_singleton nofun)

/-- Evaluation is the reference, in its result and in the fields it looks up, in order. It fails
exactly if a comparison is reached whose field is missing, with the error of the first, and nothing
is looked up after that. -/
theorem observe_agrees_reference (view : View) (c : Condition) :
    c.observe view [] = ((c.reference view).result, (c.reference view).lookups) ∧
      c.evaluate view = (c.reference view).result ∧
      (∀ e, c.evaluate view = .error e ↔
        ∃ before field value after,
          (c.reference view).leaves = before ++ .equals field value :: after ∧
            view.resolve field = .error e ∧ view.Resolves before) ∧
      ∀ before field value after e,
        (c.reference view).leaves = before ++ .equals field value :: after →
          view.resolve field = .error e →
            after = [] ∧ (c.observe view []).2 = before.flatMap leafLookups ++ [field] := by
  have hobserve : c.observe view [] = ((c.reference view).result, (c.reference view).lookups) := by
    rw [observe_eq, List.nil_append]
  have hevaluate : c.evaluate view = (c.reference view).result := by
    rw [← fst_observe view c [], hobserve]
  have htraced := traced_reference view c
  refine ⟨hobserve, hevaluate, fun e => ?_, fun before field value after e hleaves hfault => ?_⟩
  · rw [hevaluate]
    exact htraced.result_eq_error_iff
  · obtain ⟨-, rfl⟩ := htraced.stops hleaves hfault
    refine ⟨rfl, ?_⟩
    rw [hobserve, Evaluation.lookups, hleaves, List.flatMap_append, List.flatMap_singleton]
    rfl

end Condition
end ApiGateway
