import ApiGateway.Condition.Evaluate

/-! A reference for the evaluation of conditions. Every operand has a value of its own, and a list
of operands is read up to the first that decides; no log is carried along. The leaves reached say
what was looked up, and an error comes from the last of them. -/

namespace ApiGateway

/-- What comes of a condition: its result, and the leaves that are reached for it, in order. -/
structure Evaluation where
  result : Except EvaluationError Bool
  leaves : List Condition

def Condition.leafLookups : Condition → List Field
  | .equals field _ => [field]
  | .present field => [field]
  | .method _ => [.method]
  | .pathExact _ => [.path]
  | .pathPrefix _ => [.path]
  | _ => []

namespace Evaluation

def lookups (e : Evaluation) : List Field := e.leaves.flatMap Condition.leafLookups

def isNeutral (neutral : Bool) (e : Evaluation) : Bool :=
  match e.result with
  | .ok value => value == neutral
  | .error _ => false

def deciding? (neutral : Bool) (operands : List Evaluation) : Option Evaluation :=
  operands.find? fun e => !e.isNeutral neutral

def visited (neutral : Bool) (operands : List Evaluation) : List Evaluation :=
  operands.takeWhile (isNeutral neutral) ++ (deciding? neutral operands).toList

def combine (neutral : Bool) (operands : List Evaluation) : Evaluation where
  result := (deciding? neutral operands).elim (.ok neutral) result
  leaves := (visited neutral operands).flatMap leaves

def negated (e : Evaluation) : Evaluation := { e with result := e.result.map (!·) }

end Evaluation

namespace Condition

mutual

def reference (view : View) : Condition → Evaluation
  | .always => ⟨.ok true, [.always]⟩
  | .never => ⟨.ok false, [.never]⟩
  | .all items => .combine true (references view items)
  | .any items => .combine false (references view items)
  | .negate item => (reference view item).negated
  | .equals field value =>
    ⟨(view.resolve field).map (field.agrees · value), [.equals field value]⟩
  | .present field => ⟨.ok (view.resolve field).toBool, [.present field]⟩
  | .method methods => ⟨.ok (methods.contains view.method), [.method methods]⟩
  | .pathExact path => ⟨.ok (view.path == path), [.pathExact path]⟩
  | .pathPrefix start => ⟨.ok (start.toList.isPrefixOf view.path.toList), [.pathPrefix start]⟩

def references (view : View) : List Condition → List Evaluation
  | [] => []
  | item :: rest => reference view item :: references view rest

end

theorem references_eq_map (view : View) (items : List Condition) :
    references view items = items.map (reference view) := by
  induction items with
  | nil => rfl
  | cons item rest ih => rw [references, ih, List.map_cons]

end Condition

namespace Evaluation

variable {neutral : Bool} {e : Evaluation} {rest : List Evaluation}

theorem combine_cons_of_isNeutral (h : e.isNeutral neutral = true) :
    combine neutral (e :: rest) =
      ⟨(combine neutral rest).result, e.leaves ++ (combine neutral rest).leaves⟩ := by
  simp only [combine, visited, deciding?, List.find?_cons, List.takeWhile_cons, h, Bool.not_true,
    if_true, List.cons_append, List.flatMap_cons]

theorem combine_cons_of_not_isNeutral (h : e.isNeutral neutral = false) :
    combine neutral (e :: rest) = e := by
  simp only [combine, visited, deciding?, List.find?_cons, List.takeWhile_cons, h, Bool.not_false,
    Bool.false_eq_true, if_false, Option.elim_some, Option.toList_some, List.nil_append,
    List.flatMap_singleton]

theorem isNeutral_iff : e.isNeutral neutral = true ↔ e.result = .ok neutral := by
  unfold isNeutral
  split
  next h => rw [h, Except.ok.injEq, beq_iff_eq]
  next h => rw [h]; exact iff_of_false Bool.false_ne_true nofun

theorem combine_singleton (neutral : Bool) (e : Evaluation) : combine neutral [e] = e := by
  cases h : e.isNeutral neutral with
  | true =>
    rw [combine_cons_of_isNeutral h]
    exact congr (congrArg mk (isNeutral_iff.mp h).symm) (List.append_nil _)
  | false => exact combine_cons_of_not_isNeutral h

end Evaluation

namespace Condition

variable {view : View} {item : Condition} {rest : List Condition} {log : List Field}

theorem observeAll_cons_of_true (h : (item.observe view log).1 = .ok true) :
    observeAll view (item :: rest) log = observeAll view rest (item.observe view log).2 := by
  rw [observeAll]
  cases hitem : item.observe view log with
  | mk result after =>
    have hresult : result = .ok true := by rwa [hitem] at h
    rw [hresult]

theorem observeAll_cons_of_ne (h : (item.observe view log).1 ≠ .ok true) :
    observeAll view (item :: rest) log = item.observe view log := by
  rw [observeAll]
  split
  next heq => exact absurd (congrArg Prod.fst heq) h
  next => rfl

theorem observeAny_cons_of_false (h : (item.observe view log).1 = .ok false) :
    observeAny view (item :: rest) log = observeAny view rest (item.observe view log).2 := by
  rw [observeAny]
  cases hitem : item.observe view log with
  | mk result after =>
    have hresult : result = .ok false := by rwa [hitem] at h
    rw [hresult]

theorem observeAny_cons_of_ne (h : (item.observe view log).1 ≠ .ok false) :
    observeAny view (item :: rest) log = item.observe view log := by
  rw [observeAny]
  split
  next heq => exact absurd (congrArg Prod.fst heq) h
  next => rfl

theorem items_eq {neutral : Bool} {items : List Condition}
    {read : List Condition → List Field → Except EvaluationError Bool × List Field}
    (hnil : ∀ log, read [] log = (.ok neutral, log))
    (hneutral : ∀ item rest log, (observe view item log).1 = .ok neutral →
      read (item :: rest) log = read rest (observe view item log).2)
    (hdecides : ∀ item rest log, (observe view item log).1 ≠ .ok neutral →
      read (item :: rest) log = observe view item log)
    (hitems : ∀ item ∈ items, ∀ log,
      item.observe view log = ((item.reference view).result, log ++ (item.reference view).lookups))
    (log : List Field) :
    read items log = ((Evaluation.combine neutral (references view items)).result,
      log ++ (Evaluation.combine neutral (references view items)).lookups) := by
  induction items generalizing log with
  | nil => exact (hnil log).trans (Prod.ext rfl (List.append_nil log).symm)
  | cons item rest ih =>
    obtain ⟨hitem, hrest⟩ := List.forall_mem_cons.mp hitems
    have hfirst := hitem log
    cases h : (item.reference view).isNeutral neutral with
    | true =>
      have hresult : (item.observe view log).1 = .ok neutral := by
        rw [hfirst, Evaluation.isNeutral_iff.mp h]
      rw [hneutral item rest log hresult, ih hrest, hfirst, references,
        Evaluation.combine_cons_of_isNeutral h]
      simp only [Evaluation.lookups, List.flatMap_append, List.append_assoc]
    | false =>
      -- `observe` goes by results, so that an operand decides is read off its result
      have hresult : (item.observe view log).1 ≠ .ok neutral := by
        rw [hfirst]
        intro hok
        exact absurd (h.symm.trans (Evaluation.isNeutral_iff.mpr hok)) Bool.false_ne_true
      rw [hdecides item rest log hresult, hfirst, references,
        Evaluation.combine_cons_of_not_isNeutral h]

theorem observe_eq (view : View) (c : Condition) (log : List Field) :
    c.observe view log = ((c.reference view).result, log ++ (c.reference view).lookups) := by
  induction c generalizing log with
  | all items ih =>
    exact items_eq (fun _ => rfl) (fun _ _ _ => observeAll_cons_of_true)
      (fun _ _ _ => observeAll_cons_of_ne) ih log
  | any items ih =>
    exact items_eq (fun _ => rfl) (fun _ _ _ => observeAny_cons_of_false)
      (fun _ _ _ => observeAny_cons_of_ne) ih log
  | negate item ih =>
    rw [observe, ih]
    rfl
  | always | never =>
    simp only [observe, reference, Evaluation.lookups, List.flatMap_singleton, leafLookups,
      List.append_nil]
  | equals | present | method | pathExact | pathPrefix =>
    simp only [reference, Evaluation.lookups, List.flatMap_singleton, leafLookups]
    rfl

theorem evaluate_eq (view : View) (c : Condition) : c.evaluate view = (c.reference view).result := by
  rw [← fst_observe view c [], observe_eq]

end Condition
end ApiGateway
