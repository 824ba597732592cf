import ApiGateway.Proofs.Condition.Reference

/-! Guards against missing fields. A comparison that comes after the test that its field is there
never fails, and wherever the bare comparison has a value the guarded one has the same, so that
lists of operands are broken off where they were unless they failed. -/

namespace ApiGateway
namespace Evaluation

/-- An evaluation with a value, which is the one of another evaluation if that has one. -/
structure Settles (settled e : Evaluation) : Prop where
  exists_value : ∃ value, settled.result = .ok value
  keeps : ∀ value, e.result = .ok value → settled.result = .ok value

namespace Settles

variable {settled e : Evaluation} {neutral : Bool}

theorem of_result_eq {value : Bool} (hsettled : settled.result = .ok value)
    (he : e.result = .ok value) : settled.Settles e := by
  refine ⟨⟨value, hsettled⟩, fun other hother => ?_⟩
  rw [hsettled, ← he, hother]

theorem negated (h : settled.Settles e) : settled.negated.Settles e.negated := by
  obtain ⟨value, hvalue⟩ := h.exists_value
  cases hresult : e.result with
  | ok other =>
    obtain rfl := Except.ok.inj (hvalue.symm.trans (h.keeps other hresult))
    exact of_result_eq (congrArg (·.map (!·)) hvalue) (congrArg (·.map (!·)) hresult)
  | error fault =>
    refine ⟨⟨!value, congrArg (·.map (!·)) hvalue⟩, fun other hother => ?_⟩
    rw [Evaluation.negated, hresult] at hother
    cases hother

theorem isNeutral_of_isNeutral (h : settled.Settles e) (hneutral : e.isNeutral neutral = true) :
    settled.isNeutral neutral = true :=
  isNeutral_iff.mpr (h.keeps neutral (isNeutral_iff.mp hneutral))

theorem combine {α : Type} {settled part : α → Evaluation} (neutral : Bool) {items : List α}
    (h : ∀ item ∈ items, (settled item).Settles (part item)) :
    (combine neutral (items.map settled)).Settles (combine neutral (items.map part)) := by
  induction items with
  | nil => exact of_result_eq rfl rfl
  | cons item rest ih =>
    obtain ⟨hitem, hrest⟩ := List.forall_mem_cons.mp h
    have hsettled := ih hrest
    rw [List.map_cons, List.map_cons]
    cases hpart : (part item).isNeutral neutral with
    | true =>
      rw [combine_cons_of_isNeutral hpart,
        combine_cons_of_isNeutral (hitem.isNeutral_of_isNeutral hpart)]
      exact ⟨hsettled.exists_value, hsettled.keeps⟩
    | false =>
      rw [combine_cons_of_not_isNeutral hpart]
      cases hneutral : (settled item).isNeutral neutral with
      | false =>
        rw [combine_cons_of_not_isNeutral hneutral]
        exact hitem
      | true =>
        -- only a failure, which has no value to keep, can have been settled as neutral
        rw [combine_cons_of_isNeutral hneutral]
        refine ⟨hsettled.exists_value, fun value hvalue => ?_⟩
        have hboth := (isNeutral_iff.mp hneutral).symm.trans (hitem.keeps value hvalue)
        rw [← Except.ok.inj hboth] at hvalue
        rw [isNeutral_iff.mpr hvalue] at hpart
        cases hpart

end Settles
end Evaluation

namespace Condition

mutual

/-- The condition with every comparison behind a test that its field is there. -/
def guarded : Condition → Condition
  | .all items => .all (guardedItems items)
  | .any items => .any (guardedItems items)
  | .negate item => .negate (guarded item)
  | .equals field value => .and (.present field) (.equals field value)
  | leaf => leaf

def guardedItems : List Condition → List Condition
  | [] => []
  | item :: rest => guarded item :: guardedItems rest

end

theorem guardedItems_eq_map (items : List Condition) : guardedItems items = items.map guarded := by
  induction items with
  | nil => rfl
  | cons item rest ih => rw [guardedItems, ih, List.map_cons]

theorem settles_guarded_equals (view : View) (field : Field) (value : String) :
    (reference view (.and (.present field) (.equals field value))).Settles
      (reference view (.equals field value)) := by
  cases h : view.resolve field with
  | ok text =>
    have hpresent : (reference view (.present field)).isNeutral true = true := by
      rw [reference, h]
      rfl
    have hequals : (reference view (.equals field value)).result =
        .ok (field.agrees text value) := by
      rw [reference, h]
      rfl
    refine .of_result_eq ?_ hequals
    rw [and, reference, references_eq_map, List.map_cons,
      Evaluation.combine_cons_of_isNeutral hpresent]
    change (Evaluation.combine true [reference view (.equals field value)]).result = _
    rw [Evaluation.combine_singleton, hequals]
  | error e =>
    have hpresent : (reference view (.present field)).isNeutral true = false := by
      rw [reference, h]
      rfl
    refine ⟨⟨false, ?_⟩, fun other hother => ?_⟩
    · rw [and, reference, references_eq_map, List.map_cons,
        Evaluation.combine_cons_of_not_isNeutral hpresent, reference, h]
      rfl
    · rw [reference, h] at hother
      cases hother

theorem settles_guarded (view : View) (c : Condition) :
    (c.guarded.reference view).Settles (c.reference view) := by
  induction c with
  | all items ih | any items ih =>
    rw [guarded, reference, reference, references_eq_map, references_eq_map, guardedItems_eq_map,
      List.map_map]
    exact .combine _ ih
  | negate item ih => exact ih.negated
  | equals field value => exact settles_guarded_equals view field value
  | always | never | present | method | pathExact | pathPrefix => exact .of_result_eq rfl rfl

/-- Behind guards a condition has a value for every request, and it is the value of the bare
condition if that has one. -/
theorem evaluate_guarded_total (view : View) (c : Condition) :
    (∃ value, c.guarded.evaluate view = .ok value) ∧
      ∀ value, c.evaluate view = .ok value → c.guarded.evaluate view = .ok value := by
  obtain ⟨hvalue, hkeeps⟩ := settles_guarded view c
  rw [evaluate_eq, evaluate_eq]
  exact ⟨hvalue, hkeeps⟩

example : let c := (Condition.equals (.context "user") "alice").not
    let view := (Request.ofUri .root).view
    c.evaluate view = .error (.missingField "user") ∧ c.guarded.evaluate view = .ok true :=
  ⟨rfl, rfl⟩

end Condition
end ApiGateway
