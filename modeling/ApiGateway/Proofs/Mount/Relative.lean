import ApiGateway.Proofs.Chain.Composition
import ApiGateway.Proofs.Http.Uri
import ApiGateway.Proofs.Mount.Path

/-! The URI below a mount. Replacing the path by what follows the mount path never fails for a URI
that has a path of its own, so that a mounted chain always begins with the relative URI. -/

namespace ApiGateway
namespace Uri

/-- `relative` is `uri` as it is seen below a mount: only the path is another, and it is what follows
the mount path, or a slash if nothing does. -/
structure IsBelow (uri : Uri) (mount : MountPath) (relative : Uri) : Prop where
  scheme_eq : relative.scheme = uri.scheme
  authority_eq : relative.authority = uri.authority
  query_eq : relative.query = uri.query
  head?_path : relative.path.toList.head? = some '/'
  exists_split : ∃ head rest : String, uri.path = head ++ rest ∧
    head.utf8ByteSize = (String.ofList mount.chars).utf8ByteSize ∧
    Text.eqIgnoreCase head (String.ofList mount.chars) = true ∧
    relative.path = if rest = "" then "/" else rest

structure Same (u v : Uri) : Prop where
  scheme_eq : u.scheme = v.scheme
  authority_eq : u.authority = v.authority
  path_eq : u.path = v.path
  query_eq : u.query = v.query

structure SameUpToCase (rest : String) (u v : Uri) : Prop where
  scheme_eq : u.scheme = v.scheme
  authority_eq : u.authority = v.authority
  query_eq : u.query = v.query
  exists_heads : ∃ head head' : String, u.path = head ++ rest ∧ v.path = head' ++ rest ∧
    Text.eqIgnoreCase head head' = true

variable {u v : Uri} {mount : MountPath} {rest : String}

theorem Same.text_eq (h : u.Same v) : u.text = v.text := by
  simp only [text, h.scheme_eq, h.authority_eq, h.path_eq, h.query_eq]

theorem slash_or_ne_empty (rest : String) : (if rest = "" then "/" else rest) ≠ "" := by
  split
  · decide
  next hne => exact hne

theorem Rooted.withPath?_rest (h : u.Rooted) (hrest : mount.strip? u.path = some rest) :
    u.withPath? (if rest = "" then "/" else rest) =
      some { u with target := ⟨if rest = "" then "/" else rest, u.query⟩ } := by
  obtain ⟨head, hpath, -, -⟩ := MountPath.strip?_eq_some.mp hrest
  have hlegal := h.path_legal
  rw [hpath, String.toList_append, List.all_append, Bool.and_eq_true] at hlegal
  apply h.withPath?
  split
  · decide
  · exact hlegal.2

theorem Rooted.below_eq (h : u.Rooted) (hrest : mount.strip? u.path = some rest) :
    u.below rest = { u with target := ⟨if rest = "" then "/" else rest, u.query⟩ } := by
  rw [below, h.withPath?_rest hrest, Option.getD_some]

theorem Rooted.path_below (h : u.Rooted) (hrest : mount.strip? u.path = some rest) :
    (u.below rest).path = if rest = "" then "/" else rest := by
  rw [h.below_eq hrest]
  exact path_of_ne_empty (slash_or_ne_empty rest)

theorem Rooted.isBelow (h : u.Rooted) (hrest : mount.strip? u.path = some rest) :
    u.IsBelow mount (u.below rest) := by
  obtain ⟨head, hpath, hcase, hslash⟩ := MountPath.strip?_eq_some.mp hrest
  have hrelative := h.path_below hrest
  refine ⟨?_, ?_, ?_, ?_, head, rest, hpath, Text.utf8ByteSize_of_eqIgnoreCase hcase, hcase,
    hrelative⟩
  · rw [h.below_eq hrest]
  · rw [h.below_eq hrest]
  · rw [h.below_eq hrest]
    rfl
  · rw [hrelative]
    rcases hslash with rfl | hslash
    · rfl
    · rw [if_neg]
      · exact hslash
      · rintro rfl
        cases hslash

theorem Rooted.same_below_root (h : u.Rooted) : (u.below u.path).Same u := by
  have hroot := MountPath.strip?_of_root h.head?
  have hne : u.path ≠ "" := by
    intro hempty
    have hhead := h.head?
    rw [hempty] at hhead
    cases hhead
  have hbelow := h.isBelow hroot
  refine ⟨hbelow.scheme_eq, hbelow.authority_eq, ?_, hbelow.query_eq⟩
  rw [h.path_below hroot, if_neg hne]

theorem Rooted.below_congr (h : u.Rooted) (hrest : mount.strip? u.path = some rest)
    (hcase : u.SameUpToCase rest v) :
    mount.strip? v.path = some rest ∧ v.below rest = u.below rest := by
  obtain ⟨head, head', hpath, hpath', hheads⟩ := hcase.exists_heads
  obtain ⟨start, hstart, hmount, hslash⟩ := MountPath.strip?_eq_some.mp hrest
  obtain rfl : start = head := by
    rw [hpath] at hstart
    exact (String.append_left_inj rest).mp hstart.symm
  constructor
  · refine MountPath.strip?_eq_some.mpr ⟨head', hpath', ?_, hslash⟩
    rw [Text.eqIgnoreCase_iff] at hheads hmount ⊢
    rw [← hheads, hmount]
  · have hwith : v.withPath? (if rest = "" then "/" else rest) =
        u.withPath? (if rest = "" then "/" else rest) := by
      simp only [Uri.withPath?, hcase.scheme_eq, hcase.authority_eq, hcase.query_eq]
    rw [h.below_eq hrest, below, hwith, h.withPath?_rest hrest, Option.getD_some]

end Uri

/-! ## Dispatch -/

variable {deadline : Option Nat} {position time : Nat} {uri : Uri} {name : String} {rest : Table}
  {visit : Nat × Visit}

theorem Run.mem_visits_conclude {run : Run}
    (h : visit ∈ (run.conclude deadline uri position name rest).visits) :
    visit ∈ run.visits.map (position, ·) ∨
      ∃ left : Request,
        visit ∈ (rest.dispatchFrom deadline (position + 1) { left with uri } run.time).visits := by
  obtain ⟨visits, time, ending⟩ := run
  cases ending with
  | unhandled left =>
    rcases List.mem_append.mp h with hhere | hlater
    · exact Or.inl hhere
    · exact Or.inr ⟨left, hlater⟩
  | _ => exact Or.inl h

theorem Run.head?_visits_conclude {run : Run} {first : Visit}
    (h : run.visits.head? = some first) :
    (run.conclude deadline uri position name rest).visits.head? = some (position, first) := by
  obtain ⟨visits, time, ending⟩ := run
  obtain ⟨later, rfl⟩ := List.head?_eq_some_iff.mp h
  cases ending <;> rfl

namespace Table

theorem exists_mount_of_first {table : Table} {r : Request}
    (hvisit : visit ∈ (table.dispatchFrom deadline position r time).visits)
    (hfirst : visit.2.step = 0) :
    ∃ index mount rest, visit.1 = position + index ∧ table[index]? = some mount ∧
      mount.endpoint.mountPath.strip? r.uri.path = some rest ∧
      visit.2.request.uri = r.uri.below rest := by
  induction table generalizing position r time with
  | nil => cases hvisit
  | cons mount table ih =>
    have hlater : ∀ {q : Request} {later},
        visit ∈ (dispatchFrom deadline (position + 1) table q later).visits → q.uri = r.uri →
          ∃ index mount' rest, visit.1 = position + index ∧
            (mount :: table)[index]? = some mount' ∧
            mount'.endpoint.mountPath.strip? r.uri.path = some rest ∧
            visit.2.request.uri = r.uri.below rest := by
      intro q later hvisit huri
      obtain ⟨index, mount', rest, hposition, hmount', hrest⟩ := ih hvisit
      rw [huri] at hrest
      exact ⟨index + 1, mount', rest, by omega, hmount', hrest⟩
    cases hadmits : mount.endpoint.admits r with
    | false =>
      rw [dispatchFrom_cons_of_not_admits _ _ _ hadmits] at hvisit
      exact hlater hvisit rfl
    | true =>
      obtain ⟨relative, hrelative⟩ := Endpoint.exists_strip_of_admits hadmits
      rw [dispatchFrom_cons_of_admits _ _ _ hadmits hrelative] at hvisit
      rcases Run.mem_visits_conclude hvisit with hhere | ⟨left, hvisit⟩
      · obtain ⟨first, hmem, rfl⟩ := List.mem_map.mp hhere
        refine ⟨0, mount, relative, rfl, rfl, hrelative, ?_⟩
        rw [request_of_first hmem hfirst]
        rfl
      · exact hlater hvisit rfl

theorem head?_visits_dispatchFrom {table : Table} {r : Request} {index : Nat} {mount : Mount}
    (hmount : table[index]? = some mount) (hadmits : mount.endpoint.admits r = true)
    (hsteps : mount.chain.steps ≠ [])
    (hearlier : ∀ i < index, ∀ earlier, table[i]? = some earlier →
      earlier.endpoint.admits r = false) :
    ∃ first, (table.dispatchFrom deadline position r time).visits.head? =
      some (position + index, first) ∧ first.step = 0 := by
  induction table generalizing position index with
  | nil => cases hmount
  | cons here table ih =>
    cases index with
    | zero =>
      obtain rfl := Option.some.inj hmount
      obtain ⟨relative, hrelative⟩ := Endpoint.exists_strip_of_admits hadmits
      obtain ⟨step, steps, hchain⟩ := List.exists_cons_of_ne_nil hsteps
      have hfirst := head?_visits_runSteps deadline 0 step steps
        (r.enter here.endpoint.mountPath relative) time
      rw [← hchain] at hfirst
      rw [dispatchFrom_cons_of_admits _ _ _ hadmits hrelative]
      exact ⟨_, Run.head?_visits_conclude hfirst, rfl⟩
    | succ index =>
      have hhere : here.endpoint.admits r = false := hearlier 0 (Nat.succ_pos _) here rfl
      have hposition : position + (index + 1) = position + 1 + index := by omega
      rw [dispatchFrom_cons_of_not_admits _ _ _ hhere, hposition]
      exact ih hmount fun i hlt earlier h => hearlier (i + 1) (Nat.succ_lt_succ hlt) earlier h

/-- If a URI that was read in origin or absolute form is admitted at a path, what follows the path
can be put in its place, and the first step of every chain that a dispatch comes to sees the URI so
made: the scheme, authority and query that arrived, and a path from the root. A dispatch does come
to the first step of the first mount that admits the request. Mounted at the root, a chain sees the
URI that arrived, and the case of letters in the mount path makes no difference below it. -/
theorem dispatch_shows_uri_below (text : String) (r : Request)
    (hparse : Uri.parse? text = some r.uri) (hform : r.uri.IsOrigin ∨ r.uri.IsAbsolute) :
    (∀ e : Endpoint, e.admitsPath r = true →
      ∃ rest, e.mountPath.strip? r.uri.path = some rest ∧
        r.uri.withPath? (if rest = "" then "/" else rest) = some (r.uri.below rest) ∧
        r.uri.IsBelow e.mountPath (r.uri.below rest)) ∧
    (∀ (table : Table) (deadline : Option Nat), ∀ visit ∈ (table.dispatch deadline r).visits,
      visit.2.step = 0 → ∃ mount rest, table[visit.1]? = some mount ∧
        mount.endpoint.mountPath.strip? r.uri.path = some rest ∧
        visit.2.request.uri = r.uri.below rest) ∧
    (∀ (table : Table) (deadline : Option Nat) position mount, table[position]? = some mount →
      mount.endpoint.admits r = true → mount.chain.steps ≠ [] →
      (∀ i < position, ∀ earlier, table[i]? = some earlier → earlier.endpoint.admits r = false) →
        ∃ first, (table.dispatch deadline r).visits.head? = some (position, first) ∧
          first.step = 0) ∧
    ((MountPath.ofText "/").strip? r.uri.path = some r.uri.path ∧
      (r.uri.below r.uri.path).Same r.uri ∧ (r.uri.below r.uri.path).text = r.uri.text ∧
      (r.uri.target.path = r.uri.path → r.uri.below r.uri.path = r.uri)) ∧
    ∀ (mount : MountPath) (rest : String) (other : Uri), mount.strip? r.uri.path = some rest →
      r.uri.SameUpToCase rest other →
        mount.strip? other.path = some rest ∧ other.below rest = r.uri.below rest := by
  have hrooted := Uri.rooted_of_parse? hparse hform
  have hroot := MountPath.strip?_of_root hrooted.head?
  have hsame := hrooted.same_below_root
  refine ⟨fun e hadmits => ?_, fun table deadline visit hvisit hfirst => ?_,
    fun table deadline position mount hmount hadmits hsteps hearlier => ?_, ⟨hroot, hsame, hsame.text_eq, fun hwritten => ?_⟩,
    fun mount rest other hrest hcase => hrooted.below_congr hrest hcase⟩
  · obtain ⟨rest, hrest⟩ := Option.isSome_iff_exists.mp hadmits
    have hbelow := hrooted.withPath?_rest hrest
    rw [← hrooted.below_eq hrest] at hbelow
    exact ⟨rest, hrest, hbelow, hrooted.isBelow hrest⟩
  · obtain ⟨index, mount, rest, hposition, hmount, hrest⟩ := exists_mount_of_first hvisit hfirst
    rw [Nat.zero_add] at hposition
    exact ⟨mount, rest, hposition ▸ hmount, hrest⟩
  · obtain ⟨first, hhead, hstep⟩ := @head?_visits_dispatchFrom deadline 0 0 table r.recorded _ _
      hmount hadmits hsteps hearlier
    rw [Nat.zero_add] at hhead
    exact ⟨first, hhead, hstep⟩
  · have hpath : (if r.uri.path = "" then "/" else r.uri.path) = r.uri.target.path := by
      rw [hwritten, ← hrooted.path_below hroot, hsame.path_eq]
    rw [hrooted.below_eq hroot, hpath]
    rfl

/-- In absolute form, with the mount path in capitals and a query: past a mount that does not admit
it, the request comes to the chain below the next one. -/
theorem dispatch_shows_uri_below_absolute :
    let uri : Uri := ⟨some .http, some "h", "/API/x", some "q"⟩
    let r := Request.ofUri uri
    let table : Table := [⟨⟨"/apis", none⟩, "apis", [⟨"pass", .always, Reaction.pass⟩]⟩,
      ⟨⟨"/api/", none⟩, "api", [⟨"pass", .always, Reaction.pass⟩]⟩]
    Uri.parse? "http://h/API/x?q" = some uri ∧ uri.IsAbsolute ∧
      ∃ first, (table.dispatch none r).visits.head? = some (1, first) ∧
        first.request.uri = ⟨some .http, some "h", "/x", some "q"⟩ := by
  intro uri r table
  have hparse : Uri.parse? "http://h/API/x?q" = some uri := by decide
  obtain ⟨-, hshows, hbegins, -⟩ :=
    dispatch_shows_uri_below "http://h/API/x?q" r hparse (Or.inr rfl)
  have hearlier : ∀ i < 1, ∀ earlier, table[i]? = some earlier →
      earlier.endpoint.admits r = false := by
    intro i hi earlier hearlier
    obtain rfl := Nat.lt_one_iff.mp hi
    obtain rfl := Option.some.inj hearlier
    decide
  obtain ⟨first, hhead, hstep⟩ := hbegins table none 1 _ rfl (by decide) nofun hearlier
  obtain ⟨mount, rest, hmount, hrest, huri⟩ :=
    hshows table none (1, first) (List.mem_of_head? hhead) hstep
  obtain rfl := Option.some.inj hmount
  have hx : (MountPath.ofText "/api/").strip? "/API/x" = some "/x" := by decide
  obtain rfl : "/x" = rest := Option.some.inj (hx.symm.trans hrest)
  exact ⟨hparse, rfl, first, hhead, huri⟩

end Table
end ApiGateway
