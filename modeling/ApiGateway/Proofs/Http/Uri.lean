import ApiGateway.Http.Uri
import Mathlib.Data.List.TakeWhile

/-! URIs that were read. Path and query hold no character at which reading breaks off, so that with
another legal path in its place a target is read back as it was put together. -/

namespace ApiGateway

structure PathQuery.Legal (t : PathQuery) : Prop where
  path : t.path.toList.all isPathChar = true
  query : ∀ q, t.query = some q → q.toList.all isQueryChar = true

theorem isPathChar_inside {c : Char} (h : isPathChar c = true) : (c ≠ '?' && c ≠ '#') = true := by
  have hne : c ≠ '?' ∧ c ≠ '#' := by
    constructor <;> rintro rfl <;> exact absurd h (by decide)
  rw [decide_eq_true hne.1, decide_eq_true hne.2, Bool.true_and]

theorem isQueryChar_inside {c : Char} (h : isQueryChar c = true) : decide (c ≠ '#') = true := by
  apply decide_eq_true
  rintro rfl
  exact absurd h (by decide)

namespace PathQuery

variable {chars : List Char} {path query : String} {t : PathQuery}

theorem legal_of_parse? (h : parse? chars = some t) :
    t.Legal ∧ t.path.toList = chars.takeWhile fun c => c ≠ '?' && c ≠ '#' := by
  simp only [parse?] at h
  split at h
  next hpath =>
    have hlegal (query : Option String)
        (hquery : ∀ q, query = some q → q.toList.all isQueryChar = true) :
        Legal ⟨String.ofList (chars.takeWhile fun c => c ≠ '?' && c ≠ '#'), query⟩ := by
      refine ⟨?_, hquery⟩
      rw [String.toList_ofList]
      exact hpath
    split at h
    · split at h
      next hquery =>
        obtain rfl := Option.some.inj h
        refine ⟨hlegal _ fun q hq => ?_, String.toList_ofList⟩
        rw [← Option.some.inj hq, String.toList_ofList]
        exact hquery
      next => cases h
    · obtain rfl := Option.some.inj h
      exact ⟨hlegal none nofun, String.toList_ofList⟩
  next => cases h

theorem parse?_path (hpath : path.toList.all isPathChar = true) :
    parse? path.toList = some ⟨path, none⟩ := by
  have hinside : ∀ c ∈ path.toList, (c ≠ '?' && c ≠ '#') = true := fun c hc =>
    isPathChar_inside (List.all_eq_true.mp hpath c hc)
  have htake := List.takeWhile_eq_self_iff.mpr hinside
  have hdrop := List.dropWhile_eq_nil_iff.mpr hinside
  simp only [parse?, htake, hdrop, if_pos hpath, String.ofList_toList]

theorem parse?_path_query (hpath : path.toList.all isPathChar = true)
    (hquery : query.toList.all isQueryChar = true) :
    parse? (path.toList ++ '?' :: query.toList) = some ⟨path, some query⟩ := by
  have hinside : ∀ c ∈ path.toList, (c ≠ '?' && c ≠ '#') = true := fun c hc =>
    isPathChar_inside (List.all_eq_true.mp hpath c hc)
  have hquery' : ∀ c ∈ query.toList, decide (c ≠ '#') = true := fun c hc =>
    isQueryChar_inside (List.all_eq_true.mp hquery c hc)
  have htake : (path.toList ++ '?' :: query.toList).takeWhile (fun c => c ≠ '?' && c ≠ '#') =
      path.toList := by
    rw [List.takeWhile_append_of_pos hinside, List.takeWhile_cons_of_neg (by decide),
      List.append_nil]
  have hdrop : (path.toList ++ '?' :: query.toList).dropWhile (fun c => c ≠ '?' && c ≠ '#') =
      '?' :: query.toList := by
    rw [List.dropWhile_append_of_pos hinside, List.dropWhile_cons_of_neg (by decide)]
  have htakeQuery : query.toList.takeWhile (fun c => decide (c ≠ '#')) = query.toList :=
    List.takeWhile_eq_self_iff.mpr hquery'
  simp only [parse?, htake, hdrop, if_pos hpath, htakeQuery, if_pos hquery, String.ofList_toList]

end PathQuery

namespace Uri

variable {u : Uri} {path rest text : String}

def IsOrigin (u : Uri) : Prop :=
  u.scheme = none ∧ u.authority = none ∧ u.target.path.toList.head? = some '/'

def IsAbsolute (u : Uri) : Prop := u.scheme.isSome = true

/-- With a legal path from the root, if only as the path that goes for none, and with an authority
if there is a scheme. -/
structure Rooted (u : Uri) : Prop where
  scheme_iff : u.scheme.isSome = u.authority.isSome
  legal : u.target.Legal
  head? : u.path.toList.head? = some '/'

theorem path_of_ne_empty (h : u.target.path ≠ "") : u.path = u.target.path := by
  rw [Uri.path, if_neg h]

theorem head?_path (h : u.target.path.toList.head? = some '/') :
    u.path.toList.head? = some '/' := by
  have hne : u.target.path ≠ "" := by
    intro hempty
    rw [hempty] at h
    cases h
  rw [path_of_ne_empty hne, h]

theorem head?_takeWhile_dropWhile {chars : List Char}
    (h : ((chars.dropWhile fun c => !endsAuthority c).takeWhile fun c => c ≠ '?' && c ≠ '#') ≠ []) :
    ((chars.dropWhile fun c => !endsAuthority c).takeWhile fun c =>
      c ≠ '?' && c ≠ '#').head? = some '/' := by
  have hhead := List.head?_dropWhile_not (fun c => !endsAuthority c) chars
  cases hafter : chars.dropWhile fun c => !endsAuthority c with
  | nil => exact absurd (by rw [hafter]; rfl) h
  | cons c after =>
    rw [hafter] at h hhead
    have hends : c = '/' ∨ c = '?' ∨ c = '#' := by
      simp only [endsAuthority, Bool.not_eq_false', Bool.or_eq_true, decide_eq_true_eq] at hhead
      exact or_assoc.mp hhead
    rcases hends with rfl | rfl | rfl
    · rfl
    · exact absurd rfl h
    · exact absurd rfl h

theorem rooted_of_parseFull? {chars : List Char} (hparse : parseFull? chars = some u)
    (hform : u.IsOrigin ∨ u.IsAbsolute) : u.Rooted := by
  unfold parseFull? at hparse
  split at hparse
  next => cases hparse
  next =>
    split at hparse
    · obtain rfl := Option.some.inj hparse
      rcases hform with ⟨-, hnone, -⟩ | habsolute
      · cases hnone
      · cases habsolute
    · cases hparse
  next scheme after hscheme =>
    simp only at hparse
    split at hparse
    · obtain ⟨target, htarget, rfl⟩ := Option.map_eq_some_iff.mp hparse
      obtain ⟨hlegal, hpath⟩ := PathQuery.legal_of_parse? htarget
      refine ⟨rfl, hlegal, ?_⟩
      by_cases hempty : target.path = ""
      · simp only [Uri.path, if_pos hempty, Option.isSome_some, Bool.true_or, if_true]
        rfl
      · have hne := mt String.toList_eq_nil_iff.mp hempty
        rw [hpath] at hne
        exact head?_path (hpath ▸ head?_takeWhile_dropWhile hne)
    · cases hparse

theorem rooted_of_parse? (hparse : parse? text = some u) (hform : u.IsOrigin ∨ u.IsAbsolute) :
    u.Rooted := by
  unfold parse? at hparse
  split at hparse
  · cases hparse
  · split at hparse
    · cases hparse
    · obtain rfl := Option.some.inj hparse
      rcases hform with ⟨-, -, hhead⟩ | habsolute
      · exact absurd hhead (by decide)
      · cases habsolute
    · obtain ⟨target, htarget, rfl⟩ := Option.map_eq_some_iff.mp hparse
      obtain ⟨hlegal, hpath⟩ := PathQuery.legal_of_parse? htarget
      refine ⟨rfl, hlegal, head?_path ?_⟩
      change target.path.toList.head? = some '/'
      rw [hpath, List.takeWhile_cons_of_pos (by decide), List.head?_cons]
    · exact rooted_of_parseFull? hparse hform

/-! ## Replacing the path -/

theorem Rooted.path_legal (h : u.Rooted) : u.path.toList.all isPathChar = true := by
  unfold Uri.path
  split
  · split <;> decide
  · exact h.legal.path

theorem Rooted.withPath? (h : u.Rooted) (hpath : path.toList.all isPathChar = true) :
    u.withPath? path = some { u with target := ⟨path, u.query⟩ } := by
  cases hquery : u.query with
  | none =>
    simp only [Uri.withPath?, hquery, List.append_nil, PathQuery.parse?_path hpath,
      Option.bind_eq_bind, Option.bind_some, h.scheme_iff, beq_self_eq_true, if_true]
  | some q =>
    have htarget := PathQuery.parse?_path_query hpath (h.legal.query q hquery)
    simp only [Uri.withPath?, hquery, htarget, Option.bind_eq_bind, Option.bind_some, h.scheme_iff,
      beq_self_eq_true, if_true]

end Uri
end ApiGateway
