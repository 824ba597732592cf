import ApiGateway.Proofs.Gateway.Serving
import ApiGateway.Proofs.Mount.Alteration

/-! The id of a request. It is on the request before the first step looks at it, stays on it as long
as no handler touches it, and is on the response whichever way that came about. -/

namespace ApiGateway

def Headers.all (headers : Headers) (name : HeaderName) : List HeaderValue :=
  (headers.filter fun line => line.1 = name).map (·.2)

def Request.ids (r : Request) : List HeaderValue := r.headers.all .requestId

def Response.ids (response : Response) : List HeaderValue := response.headers.all .requestId

/-- The ids that the answer of a chain comes with. -/
def Conclusion.chainIds : Conclusion → List HeaderValue
  | .responded (.handled _) answer => answer.ids
  | _ => []

namespace Headers

theorem get?_eq_head? (headers : Headers) (name : HeaderName) :
    headers.get? name = (headers.all name).head? := by
  rw [get?, all, List.head?_map, List.head?_filter]

theorem all_set (headers : Headers) (name : HeaderName) (value : HeaderValue) :
    (headers.set name value).all name = [value] := by
  have hremoved : (headers.remove name).filter (fun line => line.1 = name) = [] := by
    refine List.filter_eq_nil_iff.mpr fun line hline => ?_
    simpa using (List.mem_filter.mp hline).2
  simp [all, set, List.filter_append, hremoved]

theorem all_filled (headers : Headers) (name : HeaderName) (value : HeaderValue) :
    (if (headers.get? name).isSome then headers else headers.set name value).all name =
      if headers.all name = [] then [value] else headers.all name := by
  rw [get?_eq_head?]
  cases hall : headers.all name with
  | nil => exact headers.all_set name value
  | cons first rest => exact hall

end Headers

theorem Request.headers_withId (r : Request) (fresh : HeaderValue) :
    (r.withId fresh).headers =
      if (r.headers.get? .requestId).isSome then r.headers
      else r.headers.set .requestId fresh := by
  unfold Request.withId
  cases r.headers.get? .requestId <;> rfl

theorem Request.ids_withId (r : Request) (fresh : HeaderValue) :
    (r.withId fresh).ids = if r.ids = [] then [fresh] else r.ids := by
  rw [Request.ids, headers_withId]
  exact r.headers.all_filled .requestId fresh

theorem Request.exists_id (r : Request) (fresh : HeaderValue) :
    ∃ id rest, (r.withId fresh).ids = id :: rest := by
  rw [ids_withId]
  cases r.ids with
  | nil => exact ⟨fresh, [], rfl⟩
  | cons id rest => exact ⟨id, rest, rfl⟩

theorem Response.ids_withId (answer : Response) (id : HeaderValue) :
    (answer.withId (some id)).ids = if answer.ids = [] then [id] else answer.ids := by
  rw [Response.ids, withId_eq]
  exact answer.headers.all_filled .requestId id

theorem Response.ids_forMethod (answer : Response) (m : Method) :
    (answer.forMethod m).ids = answer.ids := by
  rw [Response.ids, headers_forMethod, Response.ids]

theorem Earlier.asymm {a b : Nat × Visit} (h : Earlier a b) : ¬ Earlier b a := by
  simp only [Earlier] at h ⊢
  omega

variable {limit : Nat} {table : Table} {r : Request} {bound : Dispatch}

theorem Dispatch.Cut.mem_calls_of_earlier (h : Dispatch.Cut limit (table.dispatch none r) bound)
    {call visit : Nat × Visit} (hvisit : visit ∈ bound.visits)
    (hcall : call ∈ (table.dispatch none r).calls) (hearlier : Earlier call visit) :
    call ∈ bound.calls := by
  obtain ⟨hcall, hcalled⟩ := List.mem_filter.mp hcall
  obtain ⟨lost, hlost⟩ := h.begins
  have horder := table.pairwise_visits_dispatch r
  rw [← hlost] at horder hcall
  rcases List.mem_append.mp hcall with hleft | hcall
  · exact List.mem_filter.mpr ⟨hleft, hcalled⟩
  · exact absurd ((List.pairwise_append.mp horder).2.2 visit hvisit call hcall) hearlier.asymm

namespace Router

theorem ids_of_mem_visits (router : Router) {visit : Nat × Visit}
    (hvisit : visit ∈ (router.dispatch table r).visits) :
    visit.2.request.ids = r.ids ∨
      ∃ earlier ∈ (router.dispatch table r).calls, Earlier earlier visit ∧
        table.Alters Request.ids earlier := by
  have hcut := router.cut_dispatch table r
  have hfree := hcut.begins.mem hvisit
  rcases Table.part_of_mem_visits Request.ids (fun _ _ _ => rfl) hfree with
    hids | ⟨earlier, hcall, hearlier, halters⟩
  · exact Or.inl hids
  · exact Or.inr ⟨earlier, hcut.mem_calls_of_earlier hvisit hcall hearlier, hearlier, halters⟩

theorem ids_of_head? (router : Router) {first : Nat × Visit}
    (hfirst : (router.dispatch table r).visits.head? = some first) :
    first.2.request.ids = r.ids := by
  rcases router.ids_of_mem_visits (List.mem_of_head? hfirst) with
    hids | ⟨earlier, hcall, hearlier, _⟩
  · exact hids
  · obtain ⟨later, hvisits⟩ := List.head?_eq_some_iff.mp hfirst
    have horder := (table.pairwise_visits_dispatch r).sublist
      (router.cut_dispatch table r).begins.sublist
    have hvisit := (List.mem_filter.mp hcall).1
    rw [hvisits] at horder hvisit
    rcases List.mem_cons.mp hvisit with rfl | hvisit
    · exact absurd hearlier hearlier.asymm
    · exact absurd ((List.pairwise_cons.mp horder).1 earlier hvisit) hearlier.asymm

theorem ids_response_dispatch (router : Router) (table : Table) (r : Request) :
    (router.dispatch table r).conclusion.response.ids =
      (router.dispatch table r).conclusion.chainIds := by
  have hcut := router.cut_dispatch table r
  by_cases hends : (table.dispatch none r).EndsBefore router.deadline
  · rw [hcut.ended hends]
    obtain ⟨w, time, _, hend⟩ :=
      Table.conclusion_dispatch.mp (Eq.refl (table.dispatch none r).conclusion)
    generalize (table.dispatch none r).conclusion = conclusion at hend
    cases hend <;> rfl
  · rw [hcut.overdue hends]
    rfl

theorem ids_serve (router : Router) (table : Table) (fresh : HeaderValue) (r : Request) :
    (router.serve table fresh r).1.ids =
      if (router.serve table fresh r).2.conclusion.chainIds = [] then (r.withId fresh).ids.take 1
      else (router.serve table fresh r).2.conclusion.chainIds := by
  obtain ⟨id, rest, hids⟩ := r.exists_id fresh
  have hfirst : (r.withId fresh).headers.get? .requestId = some id := by
    rw [Headers.get?_eq_head?, ← Request.ids, hids, List.head?_cons]
  simp only [serve_eq, hfirst, Response.ids_forMethod, Response.ids_withId,
    router.ids_response_dispatch, hids]
  rfl

/-- The ids a request arrives with, or the fresh one if it has none, are on it at the first step and
at every later one that no handler has changed them before. Its response has the first of them,
whatever the dispatch came to, unless it is the answer of a chain with ids of its own, which it
keeps. -/
theorem serve_keeps_ids (router : Router) (table : Table) (fresh : HeaderValue) (r : Request) :
    let ids := if r.ids = [] then [fresh] else r.ids
    let served := router.serve table fresh r
    let chainIds := served.2.conclusion.chainIds
    (∀ first, served.2.visits.head? = some first → first.2.request.ids = ids) ∧
      (∀ visit ∈ served.2.visits, visit.2.request.ids = ids ∨
        ∃ earlier ∈ served.2.calls, Earlier earlier visit ∧ table.Alters Request.ids earlier) ∧
      served.1.ids = if chainIds = [] then ids.take 1 else chainIds := by
  intro ids served chainIds
  have hids : (r.withId fresh).ids = ids := r.ids_withId fresh
  have hdispatch : served.2 = router.dispatch table (r.withId fresh) :=
    router.snd_serve table fresh r
  have hserve : served.1.ids = if chainIds = [] then (r.withId fresh).ids.take 1 else chainIds :=
    router.ids_serve table fresh r
  rw [hdispatch, ← hids]
  exact ⟨fun _ => router.ids_of_head?, fun _ => router.ids_of_mem_visits, hserve⟩

end Router
end ApiGateway
