import ApiGateway.Chain.Basic
import ApiGateway.Proofs.Condition.Parts
import ApiGateway.Proofs.Condition.Reference
import ApiGateway.Proofs.Text.Delimiting
import ApiGateway.Text.Blank

/-! Printed conditions. What is printed for a condition can be told from what is printed for any
other one, and its end from what comes after it, as long as no name of a context field has white
space or parentheses in it. -/

namespace ApiGateway

namespace Operator

variable {operator other : Operator} {x y : List Char}

def lead (operator : Operator) : List Char :=
  (if operator.arity = .none then [] else ['(']) ++ operator.name.toList

theorem mem_every (operator : Operator) : operator ∈ every := by
  cases operator <;> decide

theorem lead_append_inj (h : operator.lead ++ x = other.lead ++ y) : operator = other ∧ x = y := by
  have hleads : ∀ a ∈ every, ∀ b ∈ every, a.lead <+: b.lead → a = b := by decide
  have hoperator : operator = other := by
    rcases List.prefix_or_prefix_of_prefix (List.prefix_append operator.lead x)
      (h ▸ List.prefix_append other.lead y) with hle | hle
    · exact hleads _ operator.mem_every _ other.mem_every hle
    · exact (hleads _ other.mem_every _ operator.mem_every hle).symm
  subst hoperator
  exact ⟨rfl, List.append_cancel_left h⟩

end Operator

/-! ## Fields and methods -/

def Field.Plain : Field → Prop
  | .context name => ∀ c ∈ name.toList, Text.isBlank c = false ∧ c ≠ '(' ∧ c ≠ ')'
  | _ => True

instance : DecidablePred Field.Plain
  | .context name =>
    List.decidableBAll (fun c => Text.isBlank c = false ∧ c ≠ '(' ∧ c ≠ ')') name.toList
  | .method | .path | .host | .header _ => .isTrue trivial

theorem endsWord_eq_false_of_isTokenChar {c : Char} (h : isTokenChar c = true) :
    Text.endsWord c = false := by
  rw [Bool.eq_false_iff]
  intro hends
  rcases Bool.or_eq_true_iff.mp hends with hc | hc
  all_goals
    rw [of_decide_eq_true hc] at h
    exact absurd h (by decide)

theorem Method.endsWord_text (m : Method) : ∀ c ∈ m.text.toList, Text.endsWord c = false := by
  intro c hc
  exact endsWord_eq_false_of_isTokenChar
    (List.all_eq_true.mp (Bool.and_eq_true_iff.mp m.isToken).2 c hc)

theorem Method.toldApart (m n : Method) : Text.ToldApart (fun m : Method => m.text.toList) m n := by
  intro x y hx hy h
  obtain ⟨htext, hxy⟩ := Text.word_append_inj m.endsWord_text n.endsWord_text hx hy h
  exact ⟨Method.text_inj (String.toList_inj.mp htext), hxy⟩

namespace Field

variable {field other : Field}

theorem Plain.endsWord_text (h : field.Plain) :
    ∀ c ∈ field.text.toList, Text.endsWord c = false := by
  cases field with
  | method | path | host => exact Text.endsWord_of_any rfl
  | header name =>
    rw [text, String.toList_append, List.forall_mem_append]
    have hname := (Bool.and_eq_true_iff.mp (Bool.and_eq_true_iff.mp name.isName).1).1
    have hchars := List.all_eq_true.mp (Bool.and_eq_true_iff.mp hname).2
    exact ⟨Text.endsWord_of_any rfl, fun c hc => endsWord_eq_false_of_isTokenChar (hchars c hc)⟩
  | context name =>
    rw [text, String.toList_append, List.forall_mem_append]
    refine ⟨Text.endsWord_of_any rfl, fun c hc => ?_⟩
    obtain ⟨hblank, -, hclosing⟩ := h c hc
    have hspace : c ≠ ' ' := by
      rintro rfl
      exact absurd hblank (by decide)
    rw [Text.endsWord, decide_eq_false hspace, decide_eq_false hclosing, Bool.or_false]

theorem text_inj (h : field.text = other.text) : field = other := by
  rw [← String.toList_inj] at h
  cases field with
  | header name =>
    cases other with
    | header _ =>
      rw [text, text, String.toList_append, String.toList_append] at h
      exact congrArg _ (HeaderName.text_inj (String.toList_inj.mp (List.append_cancel_left h)))
    | _ => simp [text] at h
  | context name =>
    cases other with
    | context _ =>
      rw [text, text, String.toList_append, String.toList_append] at h
      exact congrArg _ (String.toList_inj.mp (List.append_cancel_left h))
    | _ => simp [text] at h
  | method | path | host => cases other <;> first | rfl | simp [text] at h

theorem Plain.toldApart (h : field.Plain) (hother : other.Plain) :
    Text.ToldApart (fun field : Field => field.text.toList) field other := by
  intro x y hx hy hsame
  obtain ⟨htext, hxy⟩ := Text.word_append_inj h.endsWord_text hother.endsWord_text hx hy hsame
  exact ⟨text_inj (String.toList_inj.mp htext), hxy⟩

end Field

/-! ## Conditions -/

namespace Condition

variable {a b c : Condition} {items : List Condition} {x y : List Char}

def operator : Condition → Operator
  | .always => .always
  | .never => .never
  | .all _ => .all
  | .any _ => .any
  | .negate _ => .negate
  | .equals _ _ => .equals
  | .present _ => .present
  | .method _ => .method
  | .pathExact _ => .pathExact
  | .pathPrefix _ => .pathPrefix

def operandChars : Condition → List Char
  | .always => []
  | .never => []
  | .all items => items.flatMap (fun item => ' ' :: item.text.toList) ++ [')']
  | .any items => items.flatMap (fun item => ' ' :: item.text.toList) ++ [')']
  | .negate item => ' ' :: (item.text.toList ++ [')'])
  | .equals field value => ' ' :: (field.text.toList ++ ' ' :: ((Text.quoted value).toList ++ [')']))
  | .present field => ' ' :: (field.text.toList ++ [')'])
  | .method methods => methods.flatMap (fun m => ' ' :: m.text.toList) ++ [')']
  | .pathExact path => ' ' :: ((Text.quoted path).toList ++ [')'])
  | .pathPrefix start => ' ' :: ((Text.quoted start).toList ++ [')'])

theorem toList_itemsText (items : List Condition) :
    (itemsText items).toList = items.flatMap fun item => ' ' :: item.text.toList := by
  induction items with
  | nil => rfl
  | cons item rest ih =>
    rw [itemsText, String.toList_append, String.toList_append, ih, List.flatMap_cons]
    rfl

theorem toList_text (c : Condition) : c.text.toList = c.operator.lead ++ c.operandChars := by
  cases c <;>
    simp [text, operandChars, operator, Operator.lead, Operator.arity, Operator.name,
      toList_itemsText, List.flatMap_map]

theorem operandChars_of_append (h : a.text.toList ++ x = b.text.toList ++ y) :
    a.operator = b.operator ∧ a.operandChars ++ x = b.operandChars ++ y := by
  rw [toList_text, toList_text, List.append_assoc, List.append_assoc] at h
  exact Operator.lead_append_inj h

/-- No field that the condition names has white space or parentheses in a name of its own. -/
def Plain (c : Condition) : Prop := ∀ part ∈ c.parts, ∀ field ∈ part.leafLookups, field.Plain

instance : DecidablePred Plain := fun c =>
  inferInstanceAs (Decidable (∀ part ∈ c.parts, ∀ field ∈ part.leafLookups, field.Plain))

theorem Plain.of_mem_leafLookups {field : Field} (h : c.Plain) (hfield : field ∈ c.leafLookups) :
    field.Plain :=
  h c (mem_parts_self c) field hfield

namespace Joins

variable {operator : Operator} {others : List Condition}

theorem plain (h : Joins operator items c) (hc : c.Plain) : ∀ item ∈ items, item.Plain := by
  intro item hitem part hpart
  apply hc part
  rw [h.parts_eq, itemsParts_eq_flatMap]
  exact List.mem_cons_of_mem _ (List.mem_flatMap.mpr ⟨item, hitem, hpart⟩)

theorem operandChars_eq (h : Joins operator items c) :
    c.operandChars = items.flatMap (fun item => ' ' :: item.text.toList) ++ [')'] := by
  cases h with
  | all | any => rfl
  | negate => rw [List.flatMap_singleton]; rfl

theorem exists_of_operator_eq (h : Joins operator items a) (hoperator : a.operator = b.operator) :
    ∃ others, Joins operator others b := by
  cases h with
  | all =>
    cases b with
    | all others => exact ⟨others, .all⟩
    | _ => cases hoperator
  | any =>
    cases b with
    | any others => exact ⟨others, .any⟩
    | _ => cases hoperator
  | negate =>
    cases b with
    | negate other => exact ⟨[other], .negate⟩
    | _ => cases hoperator

theorem unique (ha : Joins operator items a) (hb : Joins operator items b) : a = b := by
  cases ha <;> cases hb <;> rfl

theorem text_append_inj (hjoins : Joins operator items a) (ha : a.Plain) (hb : b.Plain)
    (hitems : ∀ item ∈ items, ∀ {other x y}, item.Plain → other.Plain →
      item.text.toList ++ x = other.text.toList ++ y → item = other ∧ x = y)
    (h : a.text.toList ++ x = b.text.toList ++ y) : a = b ∧ x = y := by
  obtain ⟨hoperator, h⟩ := operandChars_of_append h
  obtain ⟨others, hothers⟩ := hjoins.exists_of_operator_eq hoperator
  rw [hjoins.operandChars_eq, hothers.operandChars_eq, List.append_assoc, List.append_assoc] at h
  have happart : ∀ item ∈ items, ∀ other ∈ others,
      Text.ToldApart (fun item => item.text.toList) item other :=
    fun item hitem other hother _ _ _ _ =>
      hitems item hitem (hjoins.plain ha item hitem) (hothers.plain hb other hother)
  obtain ⟨rfl, hxy⟩ := Text.row_append_inj happart h
  exact ⟨hjoins.unique hothers, hxy⟩

end Joins

theorem literal_append_inj {s t : String}
    (h : ' ' :: ((Text.quoted s).toList ++ [')']) ++ x =
      ' ' :: ((Text.quoted t).toList ++ [')']) ++ y) : s = t ∧ x = y := by
  simp only [List.cons_append, List.append_assoc, List.nil_append, List.cons.injEq, true_and] at h
  obtain ⟨hliteral, hrest⟩ := Text.quoted_append_inj h
  exact ⟨hliteral, (List.cons.inj hrest).2⟩

theorem leaf_text_append_inj (hleaf : ∀ operator items, ¬ Joins operator items a) (ha : a.Plain)
    (hb : b.Plain) (h : a.text.toList ++ x = b.text.toList ++ y) : a = b ∧ x = y := by
  obtain ⟨hoperator, hchars⟩ := operandChars_of_append h
  cases a with
  | all | any | negate => exact absurd (by constructor) (hleaf _ _)
  | always =>
    cases b with
    | always => exact ⟨rfl, hchars⟩
    | _ => cases hoperator
  | never =>
    cases b with
    | never => exact ⟨rfl, hchars⟩
    | _ => cases hoperator
  | equals field value =>
    cases b with
    | equals other literal =>
      have hfield := ha.of_mem_leafLookups List.mem_cons_self
      have hother := hb.of_mem_leafLookups List.mem_cons_self
      simp only [operandChars, List.cons_append, List.append_assoc, List.nil_append,
        List.cons.injEq, true_and] at hchars
      obtain ⟨rfl, hrest⟩ := hfield.toldApart hother (.intro rfl) (.intro rfl) hchars
      obtain ⟨rfl, hclosing⟩ := Text.quoted_append_inj (List.cons.inj hrest).2
      exact ⟨rfl, (List.cons.inj hclosing).2⟩
    | _ => cases hoperator
  | present field =>
    cases b with
    | present other =>
      have hfield := ha.of_mem_leafLookups List.mem_cons_self
      have hother := hb.of_mem_leafLookups List.mem_cons_self
      simp only [operandChars, List.cons_append, List.append_assoc, List.nil_append,
        List.cons.injEq, true_and] at hchars
      obtain ⟨rfl, hclosing⟩ := hfield.toldApart hother (.intro rfl) (.intro rfl) hchars
      exact ⟨rfl, (List.cons.inj hclosing).2⟩
    | _ => cases hoperator
  | method methods =>
    cases b with
    | method others =>
      rw [operandChars, operandChars, List.append_assoc, List.append_assoc] at hchars
      obtain ⟨rfl, hxy⟩ := Text.row_append_inj (fun m _ n _ => m.toldApart n) hchars
      exact ⟨rfl, hxy⟩
    | _ => cases hoperator
  | pathExact path =>
    cases b with
    | pathExact other =>
      obtain ⟨rfl, hxy⟩ := literal_append_inj hchars
      exact ⟨rfl, hxy⟩
    | _ => cases hoperator
  | pathPrefix start =>
    cases b with
    | pathPrefix other =>
      obtain ⟨rfl, hxy⟩ := literal_append_inj hchars
      exact ⟨rfl, hxy⟩
    | _ => cases hoperator

theorem text_append_inj (ha : a.Plain) (hb : b.Plain)
    (h : a.text.toList ++ x = b.text.toList ++ y) : a = b ∧ x = y := by
  induction a generalizing b x y with
  | all items ih => exact Joins.all.text_append_inj ha hb ih h
  | any items ih => exact Joins.any.text_append_inj ha hb ih h
  | negate item ih =>
    exact Joins.negate.text_append_inj ha hb (List.forall_mem_singleton.mpr ih) h
  | _ => exact leaf_text_append_inj nofun ha hb h

end Condition

theorem Step.toList_text (s : Step) :
    s.text.toList = "Step \x7b action: ".toList ++ ((Text.quoted s.action).toList ++
      (", condition: ".toList ++ (s.condition.text.toList ++ " \x7d".toList))) := by
  have htext : s.text = "Step \x7b action: " ++ Text.quoted s.action ++ ", condition: " ++
      s.condition.text ++ " \x7d" := rfl
  simp only [htext, String.toList_append, List.append_assoc]

theorem Step.text_inj {s t : Step} (hs : s.condition.Plain) (ht : t.condition.Plain)
    (h : s.text = t.text) : s.action = t.action ∧ s.condition = t.condition := by
  rw [← String.toList_inj, Step.toList_text, Step.toList_text] at h
  obtain ⟨haction, hrest⟩ := Text.quoted_append_inj (List.append_cancel_left h)
  obtain ⟨hcondition, -⟩ := Condition.text_append_inj hs ht (List.append_cancel_left hrest)
  exact ⟨haction, hcondition⟩

namespace Condition

/-- Plain conditions print alike only if they are equal, whether they were compiled or not, and so do
steps only if they have equal conditions. -/
theorem text_identifies_plain :
    (∀ a b : Condition, a.Plain → b.Plain → (a.text = b.text ↔ a = b)) ∧
    ∀ s t : Step, s.condition.Plain → t.condition.Plain → s.text = t.text →
      s.action = t.action ∧ s.condition = t.condition := by
  refine ⟨fun a b ha hb => ⟨fun h => ?_, fun h => h ▸ rfl⟩, fun s t hs ht => Step.text_inj hs ht⟩
  have hchars : a.text.toList ++ [] = b.text.toList ++ [] := by rw [h]
  exact (text_append_inj ha hb hchars).1

theorem text_identifies_plain_quoted :
    let a := all [.equals (.context "user") "x) (exists host", .present .host]
    let b := all [.equals (.context "user") "x", .present .host, .present .host]
    a.Plain ∧ b.Plain ∧ a.text ≠ b.text ∧
      ∀ handler : Handler, (Step.mk "pass" a handler).text ≠ (Step.mk "pass" b handler).text := by
  intro a b
  have ha : a.Plain := by decide
  have hb : b.Plain := by decide
  have hne : a ≠ b := fun h => absurd (congrArg (fun c => c.parts.length) h) (by decide)
  refine ⟨ha, hb, fun h => hne ((text_identifies_plain.1 a b ha hb).mp h), fun handler h => ?_⟩
  exact hne (text_identifies_plain.2 ⟨"pass", a, handler⟩ ⟨"pass", b, handler⟩ ha hb h).2

/-! Without the proviso two conditions may print alike, be it for parentheses or for spaces. -/

example :
    (all [.present (.context "a"), .present (.context "b")]).text =
      (all [.present (.context "a) (exists context.b")]).text := rfl

example :
    (all [.equals (.context "a") "b ", .present (.context "z\"")]).text =
      (all [.equals (.context "a \"b") ") (exists context.z"]).text := rfl

end Condition
end ApiGateway
