/-! Cutting text at a separator. -/

namespace ApiGateway.Text

def splitFirst? (separator : Char) (chars : List Char) : Option (List Char × List Char) :=
  match chars.dropWhile (· ≠ separator) with
  | [] => none
  | _ :: after => some (chars.takeWhile (· ≠ separator), after)

theorem eq_of_splitFirst? {separator : Char} {chars before after : List Char}
    (h : splitFirst? separator chars = some (before, after)) :
    chars = before ++ separator :: after ∧ separator ∉ before := by
  induction chars generalizing before with
  | nil => exact absurd h (by simp [splitFirst?])
  | cons c rest ih =>
    by_cases hc : c = separator
    · subst hc
      simp only [splitFirst?, List.dropWhile_cons, List.takeWhile_cons, ne_eq, not_true_eq_false,
        decide_false, Bool.false_eq_true, if_false, Option.some.injEq, Prod.mk.injEq] at h
      obtain ⟨rfl, rfl⟩ := h
      exact ⟨rfl, List.not_mem_nil⟩
    · have hs : splitFirst? separator (c :: rest) =
          (splitFirst? separator rest).map fun parts => (c :: parts.1, parts.2) := by
        simp only [splitFirst?, List.dropWhile_cons, List.takeWhile_cons, ne_eq, hc,
          not_false_eq_true, decide_true, if_true]
        split <;> rfl
      rw [hs] at h
      obtain ⟨⟨b, a⟩, hr, he⟩ := Option.map_eq_some_iff.mp h
      obtain ⟨rfl, rfl⟩ := Prod.mk.inj he
      obtain ⟨heq, hmem⟩ := ih hr
      exact ⟨congrArg (c :: ·) heq, fun hm => (List.mem_cons.mp hm).elim (fun e => hc e.symm) hmem⟩

theorem splitFirst?_append {separator : Char} {before : List Char}
    (h : separator ∉ before) (after : List Char) :
    splitFirst? separator (before ++ separator :: after) = some (before, after) := by
  have hbefore : ∀ c ∈ before, decide (c ≠ separator) = true := by
    intro c hc
    apply decide_eq_true
    rintro rfl
    exact h hc
  rw [splitFirst?, List.dropWhile_append_of_pos hbefore, List.takeWhile_append_of_pos hbefore]
  simp

theorem splitFirst?_eq_none {separator : Char} {chars : List Char} (h : separator ∉ chars) :
    splitFirst? separator chars = none := by
  cases hsplit : splitFirst? separator chars with
  | none => rfl
  | some parts =>
    obtain ⟨hchars, _⟩ := eq_of_splitFirst? hsplit
    exact absurd (hchars ▸ List.mem_append_right _ List.mem_cons_self) h

def splitLast? (separator : Char) (chars : List Char) : Option (List Char × List Char) :=
  (splitFirst? separator chars.reverse).map fun (after, before) =>
    (before.reverse, after.reverse)

theorem eq_of_splitLast? {separator : Char} {chars before after : List Char}
    (h : splitLast? separator chars = some (before, after)) :
    chars = before ++ separator :: after ∧ separator ∉ after := by
  obtain ⟨⟨a, b⟩, hr, he⟩ := Option.map_eq_some_iff.mp h
  obtain ⟨rfl, rfl⟩ := Prod.mk.inj he
  obtain ⟨heq, hmem⟩ := eq_of_splitFirst? hr
  refine ⟨?_, fun hm => hmem (List.mem_reverse.mp hm)⟩
  have hrev := congrArg List.reverse heq
  simpa using hrev

theorem splitLast?_append {separator : Char} {after : List Char} (h : separator ∉ after)
    (before : List Char) :
    splitLast? separator (before ++ separator :: after) = some (before, after) := by
  have hreverse : (before ++ separator :: after).reverse =
      after.reverse ++ separator :: before.reverse := by
    rw [List.reverse_append, List.reverse_cons, List.append_assoc, List.singleton_append]
  rw [splitLast?, hreverse, splitFirst?_append (mt List.mem_reverse.mp h), Option.map_some]
  simp only [List.reverse_reverse]

theorem splitLast?_eq_none {separator : Char} {chars : List Char} (h : separator ∉ chars) :
    splitLast? separator chars = none := by
  rw [splitLast?, splitFirst?_eq_none (mt List.mem_reverse.mp h), Option.map_none]

/-- ASCII letters compare without case, every other character as it is. -/
def eqIgnoreCase (a b : String) : Bool := a.toList.map Char.toLower == b.toList.map Char.toLower

end ApiGateway.Text
