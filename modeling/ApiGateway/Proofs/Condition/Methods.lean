import ApiGateway.Condition.Evaluate
import ApiGateway.Proofs.Condition.Rendering

/-! Tests of the method. A test has its names in capitals and takes the method of a request as it
stands, where a comparison folds the case of both. The two agree as long as the request has its
method in capitals, and a method with a small letter passes no test whatever. -/

namespace ApiGateway

instance (m : Method) : Decidable m.Capital :=
  List.decidableBAll (fun c : Char => c.isLower = false) m.text.toList

namespace Condition

def methodTest (names : List String) : Json := operation .method (names.map .str)

def methodComparisons (names : List String) : Json :=
  operation .any (names.map fun name => operation .equals [.str "method", .str name])

variable {names : List String} {methods : List Method} {m : Method} {c : Condition} {view : View}

/-! ## The test -/

theorem mem_of_methodOperands (h : methodOperands (names.map .str) = .ok methods) :
    m ∈ methods ↔ ∃ name ∈ names, name.toList.map Char.toUpper = m.text.toList := by
  induction names generalizing methods with
  | nil =>
    cases h
    simp only [List.not_mem_nil, false_and, exists_const]
  | cons name rest ih =>
    rw [List.map_cons, methodOperands, bind_eq_ok] at h
    obtain ⟨found, hfound, h⟩ := h
    obtain ⟨others, hothers, h⟩ := bind_eq_ok.mp h
    cases h
    obtain ⟨name', hname, htext⟩ := text_of_methodOperand hfound
    obtain rfl := Json.str.inj hname
    have hsame : m = found ↔ found.text.toList = m.text.toList := by
      obtain ⟨text, htoken⟩ := m
      obtain ⟨text', htoken'⟩ := found
      rw [Method.mk.injEq, String.toList_inj, eq_comm]
    rw [List.mem_cons, hsame, ih hothers, htext]
    simp only [List.mem_cons, exists_eq_or_imp]

theorem method_of_compile (h : compile (methodTest names) = .ok c) :
    names ≠ [] ∧ ∃ methods, methodOperands (names.map .str) = .ok methods ∧ c = .method methods := by
  rw [compile, methodTest, compileAt_operation (by decide)] at h
  have harity := admits_of_applyOperator h
  constructor
  · rintro rfl
    cases harity
  · simp only [applyOperator, harity, Bool.not_true, Bool.false_eq_true, if_false] at h
    obtain ⟨methods, hmethods, hc⟩ := map_eq_ok.mp h
    exact ⟨methods, hmethods, hc.symm⟩

theorem map_toUpper_eq_text_iff {name : String} :
    name.toList.map Char.toUpper = m.text.toList ↔
      m.Capital ∧ Text.eqIgnoreCase m.text name = true := by
  rw [map_toUpper_eq_iff, Text.eqIgnoreCase_iff]
  rfl

theorem evaluate_methodTest (h : compile (methodTest names) = .ok c) (view : View) :
    c.evaluate view = .ok
      (decide view.method.Capital && names.any (Text.eqIgnoreCase view.method.text)) := by
  obtain ⟨_, methods, hmethods, rfl⟩ := method_of_compile h
  rw [evaluate, Except.ok.injEq, Bool.eq_iff_iff, List.contains_iff_mem,
    mem_of_methodOperands hmethods]
  simp only [map_toUpper_eq_text_iff, Bool.and_eq_true, decide_eq_true_eq, List.any_eq_true]
  exact ⟨fun ⟨name, hname, hcapital, hsame⟩ => ⟨hcapital, name, hname, hsame⟩,
    fun ⟨hcapital, name, hname, hsame⟩ => ⟨name, hname, hcapital, hsame⟩⟩

/-! ## The comparisons -/

theorem compile_methodComparisons (hsome : names ≠ []) :
    compile (methodComparisons names) = .ok (.any (names.map (.equals .method))) := by
  have hrendered : itemsToJson (names.map (.equals .method)) =
      names.map fun name => operation .equals [.str "method", .str name] := by
    rw [itemsToJson_eq_map, List.map_map]
    rfl
  have hitems : compileItems 2 (itemsToJson (names.map (.equals .method))) =
      .ok (names.map (.equals .method)) := by
    apply compileItems_itemsToJson
    intro item hitem
    obtain ⟨name, _, rfl⟩ := List.mem_map.mp hitem
    exact compileAt_leaf (by decide) fun _ => rfl
  rw [hrendered] at hitems
  rw [compile, methodComparisons, compileAt_operation (by decide)]
  refine (applyOperator_eq_ok_of_nests ?_ (fun _ => compileItems_length) rfl).mpr ⟨_, hitems, .any⟩
  rw [List.length_map]
  exact decide_eq_true (List.length_pos_iff.mpr hsome)

theorem evaluate_methodComparisons (view : View) (names : List String) :
    evaluate view (.any (names.map (.equals .method))) =
      .ok (names.any (Text.eqIgnoreCase view.method.text)) := by
  rw [evaluate]
  induction names with
  | nil => rfl
  | cons name rest ih =>
    have hname : evaluate view (.equals .method name) =
        .ok (Text.eqIgnoreCase view.method.text name) := rfl
    rw [List.map_cons, evaluateAny, hname, ih, List.any_cons]
    cases Text.eqIgnoreCase view.method.text name <;> rfl

/-- A test of the method that compiles has a value for every request: it holds if the method has no
small letter and is, letter case aside, one of the names. Comparisons of the method with the same
names compile as well and hold if it is one of them in any letter case, so that the two disagree
about the methods with a small letter that the comparisons find, and about no others. -/
theorem method_test_holds_in_capitals (h : compile (methodTest names) = .ok c) :
    ∃ comparisons, compile (methodComparisons names) = .ok comparisons ∧ ∀ view : View,
      c.evaluate view = .ok
        (decide view.method.Capital && names.any (Text.eqIgnoreCase view.method.text)) ∧
      comparisons.evaluate view = .ok (names.any (Text.eqIgnoreCase view.method.text)) ∧
      (c.evaluate view = comparisons.evaluate view ↔
        view.method.Capital ∨ ∀ name ∈ names, ¬ Text.eqIgnoreCase view.method.text name) := by
  obtain ⟨hsome, _⟩ := method_of_compile h
  refine ⟨_, compile_methodComparisons hsome, fun view => ?_⟩
  have htest := evaluate_methodTest h view
  have hcomparisons := evaluate_methodComparisons view names
  refine ⟨htest, hcomparisons, ?_⟩
  rw [htest, hcomparisons, Except.ok.injEq, Bool.and_eq_right_iff_imp, decide_eq_true_eq,
    List.any_eq_true]
  constructor
  · intro hcapital
    by_cases hnamed : ∃ name ∈ names, Text.eqIgnoreCase view.method.text name = true
    · exact Or.inl (hcapital hnamed)
    · exact Or.inr fun name hname hsame => hnamed ⟨name, hname, hsame⟩
  · rintro (hcapital | hnone) ⟨name, hname, hsame⟩
    · exact hcapital
    · exact absurd hsame (hnone name hname)

def purging : Condition := .method [⟨"PURGE", by decide⟩]

def requesting (m : Method) : Request := { Request.ofUri .root with method := m }

theorem method_test_holds_in_capitals_purge :
    compile (methodTest ["purge"]) = .ok purging ∧
      purging.evaluate (requesting ⟨"PURGE", by decide⟩).view = .ok true := by
  have hcompile : compile (methodTest ["purge"]) = .ok purging := rfl
  obtain ⟨_, _, hviews⟩ := method_test_holds_in_capitals hcompile
  exact ⟨hcompile, (hviews _).1.trans rfl⟩

theorem method_test_misses_small_letters :
    compile (methodTest ["purge"]) = .ok purging ∧
      compile (methodComparisons ["purge"]) = .ok (.any [.equals .method "purge"]) ∧
      Text.eqIgnoreCase (requesting ⟨"purge", by decide⟩).method.text "purge" = true ∧
      purging.evaluate (requesting ⟨"purge", by decide⟩).view = .ok false ∧
      (Condition.any [.equals .method "purge"]).evaluate (requesting ⟨"purge", by decide⟩).view =
        .ok true :=
  ⟨rfl, rfl, rfl, rfl, rfl⟩

end Condition
end ApiGateway
