import ApiGateway.Config.Validation
import Mathlib.Data.List.Basic

/-! Places in a configuration, and lists of what is wrong at them. A list in document order is put
together from lists for one part after the other. -/

namespace ApiGateway

inductive ConfigPlace where
  | name (pipeline : Nat)
  | action (pipeline processor : Nat)
  | path (pipeline endpoint : Nat)
  | host (pipeline endpoint : Nat)
  | tlsKey
  | tlsCert
  | bindAddress

namespace ConfigPlace

/-- Document order is the lexicographic order of ranks. -/
@[simp] def rank : ConfigPlace → List Nat
  | .name i => [0, i, 0]
  | .action i j => [0, i, 1, j]
  | .path i j => [0, i, 2, j, 0]
  | .host i j => [0, i, 2, j, 1]
  | .tlsKey => [1]
  | .tlsCert => [2]
  | .bindAddress => [3]

@[simp] def Before (a b : ConfigPlace) : Prop := a.rank < b.rank

end ConfigPlace

abbrev Faults := ConfigPlace → ValidationError → Prop

namespace Faults

def Precede (F G : Faults) : Prop :=
  ∀ place error place' error', F place error → G place' error' → place.Before place'

/-- The errors are all that is wrong and nothing else, each as often as there are places with it, in
document order. -/
def ListedBy (F : Faults) (errors : List ValidationError) : Prop :=
  ∃ located : List (ConfigPlace × ValidationError), located.map Prod.snd = errors ∧
    located.Pairwise (fun a b => a.1.Before b.1) ∧
    ∀ place error, (place, error) ∈ located ↔ F place error

variable {F G : Faults} {errors more : List ValidationError} {α : Type}

theorem ListedBy.congr (h : F.ListedBy errors)
    (hiff : ∀ place error, F place error ↔ G place error) : G.ListedBy errors := by
  obtain ⟨located, herrors, horder, hmem⟩ := h
  exact ⟨located, herrors, horder, fun place error => (hmem place error).trans (hiff place error)⟩

theorem ListedBy.append (hF : F.ListedBy errors) (hG : G.ListedBy more) (h : F.Precede G) :
    ListedBy (fun place error => F place error ∨ G place error) (errors ++ more) := by
  obtain ⟨located, rfl, horder, hmem⟩ := hF
  obtain ⟨others, rfl, horder', hmem'⟩ := hG
  refine ⟨located ++ others, List.map_append, List.pairwise_append.mpr ⟨horder, horder', ?_⟩, ?_⟩
  · intro a ha b hb
    exact h a.1 a.2 b.1 b.2 ((hmem a.1 a.2).mp ha) ((hmem' b.1 b.2).mp hb)
  · intro place error
    rw [List.mem_append, hmem, hmem']

theorem listedBy_nil (h : ∀ place error, ¬ F place error) : F.ListedBy [] :=
  ⟨[], rfl, List.Pairwise.nil, fun place error => iff_of_false List.not_mem_nil (h place error)⟩

theorem listedBy_ite (wrong : Prop) [Decidable wrong] (place : ConfigPlace)
    (error : ValidationError) :
    ListedBy (fun place' error' => wrong ∧ place' = place ∧ error' = error)
      (if wrong then [error] else []) := by
  by_cases h : wrong
  · rw [if_pos h]
    refine ⟨[(place, error)], rfl, List.pairwise_singleton _ _, fun place' error' => ?_⟩
    rw [List.mem_singleton, Prod.mk.injEq]
    exact (and_iff_right h).symm
  · rw [if_neg h]
    exact listedBy_nil fun _ _ hwrong => h hwrong.1

theorem listedBy_flatMap {items : List α} {faults : α → Faults} {report : α → List ValidationError}
    (h : ∀ item ∈ items, (faults item).ListedBy (report item))
    (horder : items.Pairwise fun a b => (faults a).Precede (faults b)) :
    ListedBy (fun place error => ∃ item ∈ items, faults item place error)
      (items.flatMap report) := by
  induction items with
  | nil => exact listedBy_nil fun _ _ ⟨_, hitem, _⟩ => absurd hitem List.not_mem_nil
  | cons item items ih =>
    obtain ⟨hitem, hitems⟩ := List.forall_mem_cons.mp h
    obtain ⟨hfirst, hrest⟩ := List.pairwise_cons.mp horder
    have hbefore : (faults item).Precede fun place error =>
        ∃ item ∈ items, faults item place error := by
      rintro place error place' error' herror ⟨other, hother, herror'⟩
      exact hfirst other hother place error place' error' herror herror'
    refine (hitem.append (ih hitems hrest) hbefore).congr fun place error => ?_
    simp only [List.mem_cons, exists_eq_or_imp]

theorem listedBy_zipIdx {items : List α} {faults : α → Nat → Faults}
    {report : α → Nat → List ValidationError}
    (h : ∀ item i, (faults item i).ListedBy (report item i))
    (horder : ∀ a b {i j}, i < j → (faults a i).Precede (faults b j)) :
    ListedBy (fun place error => ∃ i item, items[i]? = some item ∧ faults item i place error)
      (items.zipIdx.flatMap fun entry => report entry.1 entry.2) := by
  have hpositions : items.zipIdx.Pairwise fun a b => a.2 < b.2 := by
    rw [← List.pairwise_map, List.zipIdx_map_snd]
    exact List.pairwise_lt_range' 1
  have hreport : ∀ entry ∈ items.zipIdx,
      (faults entry.1 entry.2).ListedBy (report entry.1 entry.2) := fun entry _ => h entry.1 entry.2
  have hprecede : items.zipIdx.Pairwise fun a b => (faults a.1 a.2).Precede (faults b.1 b.2) :=
    hpositions.imp fun {a b} hlt => horder a.1 b.1 hlt
  refine (listedBy_flatMap hreport hprecede).congr fun place error => ?_
  constructor
  · rintro ⟨⟨item, i⟩, hmem, herror⟩
    exact ⟨i, item, List.mk_mem_zipIdx_iff_getElem?.mp hmem, herror⟩
  · rintro ⟨i, item, hitem, herror⟩
    exact ⟨(item, i), List.mk_mem_zipIdx_iff_getElem?.mpr hitem, herror⟩

theorem ListedBy.mem_iff (h : F.ListedBy errors) {error : ValidationError} :
    error ∈ errors ↔ ∃ place, F place error := by
  obtain ⟨located, rfl, -, hmem⟩ := h
  simp only [List.mem_map, Prod.exists, exists_eq_right, hmem]

theorem ListedBy.eq_nil_iff (h : F.ListedBy errors) :
    errors = [] ↔ ∀ place error, ¬ F place error := by
  simp only [List.eq_nil_iff_forall_not_mem, h.mem_iff, not_exists]
  exact forall_comm

end Faults
end ApiGateway
