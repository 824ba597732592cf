import ApiGateway.Proofs.Condition.Parts
import ApiGateway.Proofs.Condition.Reference

/-! Rewriting conditions. Negations move down to the leaves, and operands that are joined twice in
the same way are written out in one list. Either way every list of operands is read in its old
order and broken off at its old place, so that the leaves reached stay the same, and with them all
lookups and errors. -/

namespace ApiGateway
namespace Evaluation

def turned (flip : Bool) (e : Evaluation) : Evaluation := if flip then e.negated else e

theorem isNeutral_negated (neutral : Bool) (e : Evaluation) :
    e.negated.isNeutral (!neutral) = e.isNeutral neutral := by
  obtain ⟨result, leaves⟩ := e
  cases result with
  | error => rfl
  | ok value => cases value <;> cases neutral <;> rfl

theorem negated_negated (e : Evaluation) : e.negated.negated = e := by
  obtain ⟨result, leaves⟩ := e
  cases result with
  | error => rfl
  | ok value => cases value <;> rfl

theorem combine_map_negated (neutral : Bool) (operands : List Evaluation) :
    combine (!neutral) (operands.map negated) = (combine neutral operands).negated := by
  induction operands with
  | nil => rfl
  | cons e rest ih =>
    rw [List.map_cons]
    cases h : e.isNeutral neutral with
    | true =>
      have hnegated := (isNeutral_negated neutral e).trans h
      rw [combine_cons_of_isNeutral h, combine_cons_of_isNeutral hnegated, ih]
      rfl
    | false =>
      have hnegated := (isNeutral_negated neutral e).trans h
      rw [combine_cons_of_not_isNeutral h, combine_cons_of_not_isNeutral hnegated]

theorem combine_map_turned (neutral flip : Bool) (operands : List Evaluation) :
    combine (neutral ^^ flip) (operands.map (turned flip)) =
      turned flip (combine neutral operands) := by
  cases flip with
  | false =>
    rw [Bool.xor_false]
    exact congrArg _ (List.map_id _)
  | true =>
    rw [Bool.xor_true]
    exact combine_map_negated neutral operands

theorem combine_combine_cons (neutral : Bool) (front rest : List Evaluation) :
    combine neutral (combine neutral front :: rest) = combine neutral (front ++ rest) := by
  induction front with
  | nil =>
    rw [combine_cons_of_isNeutral (isNeutral_iff.mpr rfl)]
    rfl
  | cons e front ih =>
    rw [List.cons_append]
    cases h : e.isNeutral neutral with
    | false =>
      rw [combine_cons_of_not_isNeutral h, combine_cons_of_not_isNeutral h,
        combine_cons_of_not_isNeutral h]
    | true =>
      rw [combine_cons_of_isNeutral h, combine_cons_of_isNeutral h, ← ih]
      -- the leaves read before `front` do not count when it comes to whether `front` decides
      set whole : Evaluation :=
        ⟨(combine neutral front).result, e.leaves ++ (combine neutral front).leaves⟩
      have hwhole : whole.isNeutral neutral = (combine neutral front).isNeutral neutral := rfl
      cases hfront : (combine neutral front).isNeutral neutral with
      | true =>
        rw [combine_cons_of_isNeutral hfront, combine_cons_of_isNeutral (hwhole.trans hfront),
          List.append_assoc]
      | false =>
        rw [combine_cons_of_not_isNeutral hfront,
          combine_cons_of_not_isNeutral (hwhole.trans hfront)]

end Evaluation

namespace Condition

/-- The operands joined by `all` or by `any`, whichever comes to `neutral` if none of them
decides. -/
def join (neutral : Bool) (items : List Condition) : Condition :=
  if neutral then .all items else .any items

def operands (neutral : Bool) (c : Condition) : List Condition :=
  match neutral, c with
  | true, .all items => items
  | false, .any items => items
  | _, c => [c]

def IsLeaf : Condition → Prop
  | .all _ => False
  | .any _ => False
  | .negate _ => False
  | _ => True

mutual

/-- The condition, negated if `flip`, with every negation moved down to a leaf. -/
def pushed (flip : Bool) : Condition → Condition
  | .all items => join (true ^^ flip) (pushedItems flip items)
  | .any items => join (false ^^ flip) (pushedItems flip items)
  | .negate item => pushed (!flip) item
  | leaf => if flip then .negate leaf else leaf

def pushedItems (flip : Bool) : List Condition → List Condition
  | [] => []
  | item :: rest => pushed flip item :: pushedItems flip rest

end

def nnf (c : Condition) : Condition := c.pushed false

mutual

def flatten : Condition → Condition
  | .all items => .all (spliced true items)
  | .any items => .any (spliced false items)
  | .negate item => .negate (flatten item)
  | leaf => leaf

def spliced (neutral : Bool) : List Condition → List Condition
  | [] => []
  | item :: rest => operands neutral (flatten item) ++ spliced neutral rest

end

def IsNegationNormal (c : Condition) : Prop := ∀ item, .negate item ∈ c.parts → item.IsLeaf

def IsFlat (c : Condition) : Prop :=
  ∀ neutral items, join neutral items ∈ c.parts → ∀ item ∈ items, ∀ inner,
    item ≠ join neutral inner

/-- The same result for every request, after the same lookups in the same order. -/
def Alike (a b : Condition) : Prop :=
  ∀ view, a.evaluate view = b.evaluate view ∧ ∀ log, a.observe view log = b.observe view log

variable {neutral flip : Bool} {a b c item : Condition} {items : List Condition} {view : View}

theorem pushedItems_eq_map (flip : Bool) (items : List Condition) :
    pushedItems flip items = items.map (pushed flip) := by
  induction items with
  | nil => rfl
  | cons item rest ih => rw [pushedItems, ih, List.map_cons]

theorem spliced_eq_flatMap (neutral : Bool) (items : List Condition) :
    spliced neutral items = items.flatMap fun item => operands neutral (flatten item) := by
  induction items with
  | nil => rfl
  | cons item rest ih => rw [spliced, ih, List.flatMap_cons]

@[elab_as_elim]
theorem leafInduction {motive : Condition → Prop} (leaf : ∀ c, c.IsLeaf → motive c)
    (all : ∀ items, (∀ item ∈ items, motive item) → motive (.all items))
    (any : ∀ items, (∀ item ∈ items, motive item) → motive (.any items))
    (negate : ∀ item, motive item → motive (.negate item)) (c : Condition) : motive c := by
  induction c with
  | all items ih => exact all items ih
  | any items ih => exact any items ih
  | negate item ih => exact negate item ih
  | _ => exact leaf _ trivial

theorem IsLeaf.pushed (h : c.IsLeaf) : c.pushed flip = if flip then .negate c else c := by
  cases c with
  | all | any | negate => cases h
  | _ => rfl

theorem IsLeaf.flatten (h : c.IsLeaf) : c.flatten = c := by
  cases c with
  | all | any | negate => cases h
  | _ => rfl

theorem IsLeaf.parts (h : c.IsLeaf) : c.parts = [c] := by
  cases c with
  | all | any | negate => cases h
  | _ => rfl

/-! ## Evaluation -/

theorem reference_join (view : View) (neutral : Bool) (items : List Condition) :
    (join neutral items).reference view = .combine neutral (items.map (reference view)) := by
  rw [← references_eq_map]
  cases neutral <;> rfl

theorem combine_operands (view : View) (neutral : Bool) (c : Condition) :
    .combine neutral ((operands neutral c).map (reference view)) = c.reference view := by
  unfold operands
  split
  · exact (reference_join view true _).symm
  · exact (reference_join view false _).symm
  · exact Evaluation.combine_singleton neutral _

theorem reference_pushed (view : View) (flip : Bool) (c : Condition) :
    (c.pushed flip).reference view = .turned flip (c.reference view) := by
  induction c using leafInduction generalizing flip with
  | all items ih | any items ih =>
    have hitems : (items.map (pushed flip)).map (reference view) =
        (items.map (reference view)).map (.turned flip) := by
      simp only [List.map_map]
      exact List.map_congr_left fun item hitem => ih item hitem flip
    rw [pushed, pushedItems_eq_map, reference_join, hitems, Evaluation.combine_map_turned, reference,
      references_eq_map]
  | negate item ih =>
    rw [pushed, ih, reference]
    cases flip with
    | false => rfl
    | true => exact (Evaluation.negated_negated _).symm
  | leaf c h =>
    rw [h.pushed]
    cases flip <;> rfl

theorem combine_spliced (neutral : Bool)
    (h : ∀ item ∈ items, item.flatten.reference view = item.reference view) :
    .combine neutral ((spliced neutral items).map (reference view)) =
      Evaluation.combine neutral (items.map (reference view)) := by
  induction items with
  | nil => rfl
  | cons item rest ih =>
    obtain ⟨hitem, hrest⟩ := List.forall_mem_cons.mp h
    rw [spliced, List.map_append, ← Evaluation.combine_combine_cons, combine_operands, hitem,
      List.map_cons]
    -- both lists begin with `item`, and what follows is alike
    cases hneutral : (item.reference view).isNeutral neutral with
    | true =>
      rw [Evaluation.combine_cons_of_isNeutral hneutral,
        Evaluation.combine_cons_of_isNeutral hneutral, ih hrest]
    | false =>
      rw [Evaluation.combine_cons_of_not_isNeutral hneutral,
        Evaluation.combine_cons_of_not_isNeutral hneutral]

theorem reference_flatten (view : View) (c : Condition) :
    c.flatten.reference view = c.reference view := by
  induction c using leafInduction with
  | all items ih | any items ih =>
    rw [flatten, reference, references_eq_map, combine_spliced _ ih, reference, references_eq_map]
  | negate item ih => rw [flatten, reference, ih, reference]
  | leaf c h => rw [h.flatten]

theorem Alike.of_reference (h : ∀ view, a.reference view = b.reference view) : a.Alike b := by
  intro view
  refine ⟨?_, fun log => ?_⟩
  · rw [evaluate_eq, evaluate_eq, h view]
  · rw [observe_eq, observe_eq, h view]

theorem alike_nnf (c : Condition) : c.nnf.Alike c :=
  .of_reference fun view => reference_pushed view false c

theorem alike_flatten (c : Condition) : c.flatten.Alike c :=
  .of_reference fun view => reference_flatten view c

theorem Alike.of_nnf (h : a.nnf = b.nnf) : a.Alike b := by
  refine .of_reference fun view => ?_
  rw [← show a.nnf.reference view = a.reference view from reference_pushed view false a, h]
  exact reference_pushed view false b

theorem Alike.of_flatten (h : a.flatten = b.flatten) : a.Alike b := by
  refine .of_reference fun view => ?_
  rw [← reference_flatten view a, h, reference_flatten]

/-! ## Normal forms -/

theorem parts_join (neutral : Bool) (items : List Condition) :
    (join neutral items).parts = join neutral items :: items.flatMap parts := by
  rw [← itemsParts_eq_flatMap]
  cases neutral <;> rfl

theorem join_inj {other : Bool} {items' : List Condition}
    (h : join neutral items = join other items') : neutral = other ∧ items = items' := by
  cases neutral <;> cases other <;> cases h <;> exact ⟨rfl, rfl⟩

theorem isNegationNormal_join (h : ∀ item ∈ items, item.IsNegationNormal) (neutral : Bool) :
    (join neutral items).IsNegationNormal := by
  intro item hitem
  rw [parts_join] at hitem
  rcases List.mem_cons.mp hitem with heq | hitem
  · cases neutral <;> cases heq
  · obtain ⟨operand, hoperand, hitem⟩ := List.mem_flatMap.mp hitem
    exact h operand hoperand item hitem

theorem IsLeaf.isNegationNormal (h : c.IsLeaf) (flip : Bool) :
    (c.pushed flip).IsNegationNormal := by
  intro item hitem
  have hne : c ≠ .negate item := by
    rintro rfl
    exact h
  cases flip with
  | false =>
    rw [h.pushed, if_neg Bool.false_ne_true, h.parts] at hitem
    exact absurd (List.mem_singleton.mp hitem).symm hne
  | true =>
    rw [h.pushed, if_pos rfl, Condition.parts, h.parts] at hitem
    rcases List.mem_cons.mp hitem with heq | hitem
    · obtain rfl := negate.inj heq
      exact h
    · exact absurd (List.mem_singleton.mp hitem).symm hne

theorem isNegationNormal_pushed (flip : Bool) (c : Condition) :
    (c.pushed flip).IsNegationNormal := by
  induction c using leafInduction generalizing flip with
  | all items ih | any items ih =>
    rw [pushed, pushedItems_eq_map]
    exact isNegationNormal_join (List.forall_mem_map.mpr fun item hitem => ih item hitem flip) _
  | negate item ih => exact ih (!flip)
  | leaf c h => exact h.isNegationNormal flip

theorem parts_subset_of_mem_operands (h : item ∈ operands neutral c) : item.parts ⊆ c.parts := by
  have hjoin : ∀ {items : List Condition}, item ∈ items → item.parts ⊆ (join neutral items).parts := by
    intro items hitem part hpart
    rw [parts_join]
    exact List.mem_cons_of_mem _ (List.mem_flatMap.mpr ⟨item, hitem, hpart⟩)
  unfold operands at h
  split at h
  · exact hjoin h
  · exact hjoin h
  · rw [List.mem_singleton.mp h]
    exact List.Subset.refl _

theorem IsFlat.of_mem_operands (hc : c.IsFlat) (h : item ∈ operands neutral c) : item.IsFlat :=
  fun other items hitems => hc other items (parts_subset_of_mem_operands h hitems)

theorem IsFlat.ne_join (hc : c.IsFlat) (h : item ∈ operands neutral c) (inner : List Condition) :
    item ≠ join neutral inner := by
  by_cases hjoined : ∃ items, c = join neutral items
  · obtain ⟨items, rfl⟩ := hjoined
    have hoperands : operands neutral (join neutral items) = items := by cases neutral <;> rfl
    rw [hoperands] at h
    exact hc neutral items (mem_parts_self _) item h inner
  · -- `c` is its own only operand
    rintro rfl
    unfold operands at h
    split at h
    · exact hjoined ⟨_, rfl⟩
    · exact hjoined ⟨_, rfl⟩
    · exact hjoined ⟨inner, (List.mem_singleton.mp h).symm⟩

theorem isFlat_join (h : ∀ item ∈ items, item.IsFlat ∧ ∀ inner, item ≠ join neutral inner) :
    (join neutral items).IsFlat := by
  intro other items' hitems' item hitem
  rw [parts_join] at hitems'
  rcases List.mem_cons.mp hitems' with heq | hitems'
  · obtain ⟨rfl, rfl⟩ := join_inj heq
    exact (h item hitem).2
  · obtain ⟨operand, hoperand, hitems'⟩ := List.mem_flatMap.mp hitems'
    exact (h operand hoperand).1 other items' hitems' item hitem

theorem isFlat_spliced (neutral : Bool) (h : ∀ item ∈ items, item.flatten.IsFlat) :
    (join neutral (spliced neutral items)).IsFlat := by
  apply isFlat_join
  intro item hitem
  rw [spliced_eq_flatMap] at hitem
  obtain ⟨operand, hoperand, hitem⟩ := List.mem_flatMap.mp hitem
  have hflat := h operand hoperand
  exact ⟨hflat.of_mem_operands hitem, hflat.ne_join hitem⟩

theorem isFlat_flatten (c : Condition) : c.flatten.IsFlat := by
  induction c using leafInduction with
  | all items ih => exact isFlat_spliced true ih
  | any items ih => exact isFlat_spliced false ih
  | negate item ih =>
    intro neutral items hitems
    rcases List.mem_cons.mp hitems with heq | hitems
    · cases neutral <;> cases heq
    · exact ih neutral items hitems
  | leaf c h =>
    intro neutral items hitems
    rw [h.flatten, h.parts] at hitems
    obtain rfl := List.mem_singleton.mp hitems
    cases neutral <;> cases h

theorem nnf_not_join (neutral : Bool) (items : List Condition) :
    (join neutral items).not.nnf = join (!neutral) (items.map fun item => item.not.nnf) := by
  cases neutral <;> exact congrArg _ (pushedItems_eq_map true items)

theorem flatten_join_splice (neutral : Bool) (front inner rest : List Condition) :
    (join neutral (front ++ join neutral inner :: rest)).flatten =
      (join neutral (front ++ inner ++ rest)).flatten := by
  have hflatten : ∀ items, (join neutral items).flatten = join neutral (spliced neutral items) := by
    intro items
    cases neutral <;> rfl
  have hinner : operands neutral (join neutral (spliced neutral inner)) = spliced neutral inner := by
    cases neutral <;> rfl
  rw [hflatten, hflatten]
  congr 1
  simp only [spliced_eq_flatMap neutral (_ ++ _), List.flatMap_append, List.flatMap_cons, hflatten,
    hinner, ← spliced_eq_flatMap, List.append_assoc]

/-- Moving negations to the leaves of a condition, and writing out in one list what is joined twice
in the same way, change nothing that a request can show, errors and lookups included. So negation
can be taken over `and` and `or`, these are associative, and a double negation goes for none. -/
theorem rewritten_alike :
    (∀ c : Condition, c.nnf.Alike c ∧ c.nnf.IsNegationNormal ∧ c.not.not.nnf = c.nnf ∧
      c.flatten.Alike c ∧ c.flatten.IsFlat) ∧
    (∀ neutral items,
      (join neutral items).not.nnf = join (!neutral) (items.map fun item => item.not.nnf)) ∧
    (∀ neutral front inner rest,
      (join neutral (front ++ join neutral inner :: rest)).flatten =
        (join neutral (front ++ inner ++ rest)).flatten) ∧
    ∀ a b c : Condition,
      (a.and b).not.Alike (a.not.or b.not) ∧ (a.or b).not.Alike (a.not.and b.not) ∧
      ((a.and b).and c).Alike (a.and (b.and c)) ∧ ((a.or b).or c).Alike (a.or (b.or c)) ∧
      a.not.not.Alike a := by
  refine ⟨fun c => ⟨alike_nnf c, isNegationNormal_pushed false c, rfl, alike_flatten c,
    isFlat_flatten c⟩, nnf_not_join, flatten_join_splice, fun a b c => ?_⟩
  have hassoc : ∀ neutral,
      (join neutral [join neutral [a, b], c]).Alike (join neutral [a, join neutral [b, c]]) := by
    intro neutral
    apply Alike.of_flatten
    exact (flatten_join_splice neutral [] [a, b] [c]).trans
      (flatten_join_splice neutral [a] [b, c] []).symm
  exact ⟨.of_nnf rfl, .of_nnf rfl, hassoc true, hassoc false, .of_nnf rfl⟩

end Condition
end ApiGateway
