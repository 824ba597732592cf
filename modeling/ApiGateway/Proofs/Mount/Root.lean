import ApiGateway.Proofs.Http.Forms
import ApiGateway.Proofs.Mount.Dispatch
import ApiGateway.Proofs.Mount.Path
import Mathlib.Data.List.DropRight

/-! Mounts at the root. An endpoint of slashes alone admits every request that names a path, be it an
empty one, so that a chain there which always answers leaves none of them unmatched. A request for
the asterisk names no path, and no mount admits it. -/

namespace ApiGateway

variable {path : String} {m : MountPath} {e : Endpoint} {r : Request}

namespace MountPath

theorem ofText_of_slashes (h : ∀ c ∈ path.toList, c = '/') : ofText path = ⟨[]⟩ := by
  have hdrop : path.toList.reverse.dropWhile (· = '/') = [] := by
    rw [List.dropWhile_eq_nil_iff]
    exact fun c hc => decide_eq_true (h c (List.mem_reverse.mp hc))
  rw [ofText, hdrop, List.reverse_nil]

theorem prefix_ofText (path : String) : (ofText path).chars <+: path.toList :=
  List.rdropWhile_prefix _ _

theorem isSome_strip?_nil :
    (strip? ⟨[]⟩ path).isSome = true ↔ path = "" ∨ path.toList.head? = some '/' := by
  rw [Option.isSome_iff_exists]
  constructor
  · rintro ⟨rest, hrest⟩
    obtain ⟨head, rfl, hhead, hslash⟩ := strip?_eq_some.mp hrest
    have hempty : head = "" := by
      rw [← String.toList_eq_nil_iff, ← List.map_eq_nil_iff]
      exact Text.eqIgnoreCase_iff.mp hhead
    rw [hempty, String.empty_append]
    exact hslash
  · exact fun h => ⟨path, strip?_eq_some.mpr ⟨"", (String.empty_append).symm, rfl, h⟩⟩

theorem strip?_asterisk (h : path.toList.head? = some '/') : (ofText path).strip? "*" = none := by
  rw [Option.eq_none_iff_forall_ne_some]
  intro rest hrest
  obtain ⟨head, hsplit, hhead, hslash⟩ := strip?_eq_some.mp hrest
  have hchars : head.toList ++ rest.toList = ['*'] := by
    rw [← String.toList_append, ← hsplit]
    rfl
  rcases List.append_eq_singleton_iff.mp hchars with ⟨-, hrest⟩ | ⟨hall, -⟩
  · -- nothing is taken off, and the asterisk is no slash
    rcases hslash with rfl | hslash
    · cases hrest
    · rw [hrest] at hslash
      cases hslash
  · -- all of it is taken off, so that the mount path is an asterisk as well
    rw [Text.eqIgnoreCase_iff, hall, String.toList_ofList] at hhead
    obtain ⟨c, hc, hlower⟩ := List.map_eq_singleton_iff.mp hhead.symm
    rw [toLower_eq_iff rfl] at hlower
    obtain ⟨after, hafter⟩ := prefix_ofText path
    rw [hc, hlower] at hafter
    rw [← hafter] at h
    cases h

end MountPath

/-- Whatever request such a chain is given, its first step takes it and answers. -/
def Chain.AnswersAll (chain : Chain) : Prop :=
  ∃ step rest, chain.steps = step :: rest ∧ step.condition = .always ∧
    ∀ q, ∃ delay response, step.handler q = .settle delay (.ok (.answer response))

namespace Endpoint

structure IsRoot (e : Endpoint) : Prop where
  path : ∀ c ∈ e.path.toList, c = '/'
  host : e.host = none

theorem IsRoot.admits_iff (h : e.IsRoot) :
    e.admits r = true ↔ r.uri.path = "" ∨ r.uri.path.toList.head? = some '/' := by
  rw [admits, admitsPath, mountPath, MountPath.ofText_of_slashes h.path, h.host, Bool.and_true,
    MountPath.isSome_strip?_nil]

theorem admits_asterisk (hpath : e.path.toList.head? = some '/') (huri : r.uri = .asterisk) :
    e.admits r = false := by
  have hnone : e.mountPath.strip? r.uri.path = none := by
    rw [huri]
    exact MountPath.strip?_asterisk hpath
  rw [admits, admitsPath, hnone]
  rfl

end Endpoint

def Waypoint.UpTo (position : Nat) : Waypoint → Prop
  | .mount here _ _ => here ≤ position
  | .step here index _ _ => here < position ∨ here = position ∧ index = 0

namespace Table

variable {table : Table} {position : Nat} {mount : Mount} {w next : Waypoint}

theorem Moves.upTo (hmove : table.Moves r.uri w next) (hw : w.UpTo position)
    (hreaches : table.Reaches r w) (hmount : table[position]? = some mount)
    (hadmits : ∀ q : Request, q.uri = r.uri → mount.endpoint.admits q = true)
    (hanswers : mount.chain.AnswersAll) : next.UpTo position := by
  obtain ⟨first, rest, hsteps, halways, hall⟩ := hanswers
  have hfirst : ∀ {here mount' step}, here = position → table[here]? = some mount' →
      mount'.chain.steps[0]? = some step → step = first := by
    intro here mount' step hhere hmount' hstep
    rw [hhere, hmount] at hmount'
    obtain rfl := Option.some.inj hmount'
    rw [hsteps] at hstep
    exact (Option.some.inj hstep).symm
  cases hmove with
  | @pass here q time mount' hmount' hrefuses =>
    rcases Nat.lt_or_eq_of_le hw with hlt | rfl
    · exact hlt
    · obtain rfl := Option.some.inj (hmount.symm.trans hmount')
      rw [hadmits q hreaches.uri_eq] at hrefuses
      cases hrefuses
  | enter => exact (Nat.lt_or_eq_of_le hw).imp_right fun heq => ⟨heq, rfl⟩
  | skip hmount' hstep hfalse =>
    rcases hw with hlt | ⟨hhere, rfl⟩
    · exact Or.inl hlt
    · rw [hfirst hhere hmount' hstep, halways] at hfalse
      cases hfalse
  | @hand here index q time step delay next mount' hmount' hstep htrue hpass =>
    rcases hw with hlt | ⟨hhere, rfl⟩
    · exact Or.inl hlt
    · obtain ⟨_, _, hanswer⟩ := hall q
      rw [hfirst hhere hmount' hstep, hanswer] at hpass
      cases hpass
  | leave hmount' =>
    rcases hw with hlt | ⟨rfl, hlength⟩
    · exact hlt
    · obtain rfl := Option.some.inj (hmount.symm.trans hmount')
      rw [hsteps] at hlength
      cases hlength

theorem Reaches.upTo (hw : table.Reaches r w) (hmount : table[position]? = some mount)
    (hadmits : ∀ q : Request, q.uri = r.uri → mount.endpoint.admits q = true)
    (hanswers : mount.chain.AnswersAll) : w.UpTo position := by
  induction hw with
  | start => exact Nat.zero_le _
  | move hw hmove ih => exact hmove.upTo ih hw hmount hadmits hanswers

theorem conclusion_ne_unmatched (hmount : mount ∈ table)
    (hadmits : ∀ q : Request, q.uri = r.uri → mount.endpoint.admits q = true)
    (hanswers : mount.chain.AnswersAll) (response : Response) :
    (table.dispatch none r).conclusion ≠ .responded .unmatched response := by
  intro hunmatched
  obtain ⟨position, hposition⟩ := List.mem_iff_getElem?.mp hmount
  obtain ⟨w, time, hw, hends⟩ := conclusion_dispatch.mp hunmatched
  cases hends
  have hle := hw.upTo hposition hadmits hanswers
  have hlt := (List.getElem?_eq_some_iff.mp hposition).1
  exact Nat.not_lt.mpr hle hlt

theorem dispatchFrom_of_not_admits (deadline : Option Nat) (position : Nat) (r : Request)
    (time : Nat) (h : ∀ mount ∈ table, mount.endpoint.admits r = false) :
    dispatchFrom deadline position table r time = ⟨[], time, .responded .unmatched .notFound⟩ := by
  induction table generalizing position with
  | nil => rfl
  | cons mount rest ih =>
    obtain ⟨hmount, hrest⟩ := List.forall_mem_cons.mp h
    rw [dispatchFrom_cons_of_not_admits _ _ _ hmount]
    exact ih _ hrest

/-- A mount at the root of every host admits every request that was read but one for the asterisk.
So a chain there that answers whatever it is given leaves no such request unmatched, whichever mounts
come before. A request for the asterisk is admitted by no mount with a legal path: it is answered at
once, and no handler is called. -/
theorem root_admits_unless_asterisk (table : Table) (r : Request) {text : String}
    (hread : Uri.parse? text = some r.uri) :
    (∀ e : Endpoint, e.IsRoot → (e.admits r = true ↔ text ≠ "*")) ∧
    (text ≠ "*" → ∀ mount ∈ table, mount.endpoint.IsRoot → mount.chain.AnswersAll →
      ∀ response, (table.dispatch none r).conclusion ≠ .responded .unmatched response) ∧
    (text = "*" → (∀ mount ∈ table, mount.endpoint.path.toList.head? = some '/') →
      table.dispatch none r = ⟨[], 0, .responded .unmatched .notFound⟩) := by
  have hadmits : ∀ {e : Endpoint} {q : Request}, e.IsRoot → q.uri = r.uri →
      (e.admits q = true ↔ text ≠ "*") := by
    intro e q hroot huri
    rw [hroot.admits_iff, huri]
    rcases Uri.path_of_parse? hread with ⟨htext, hasterisk⟩ | ⟨htext, hpath⟩
    · rw [hasterisk]
      exact iff_of_false (by decide) fun hne => hne htext
    · exact iff_of_true hpath htext
  refine ⟨fun e hroot => hadmits hroot rfl, fun htext mount hmount hroot hanswers => ?_,
    fun htext hpaths => ?_⟩
  · exact conclusion_ne_unmatched hmount (fun q huri => (hadmits hroot huri).mpr htext) hanswers
  · have hasterisk : r.uri = .asterisk := by
      rcases Uri.path_of_parse? hread with h | h
      · exact h.2
      · exact absurd htext h.1
    exact dispatchFrom_of_not_admits _ _ _ _ fun mount hmount =>
      Endpoint.admits_asterisk (hpaths mount hmount) hasterisk

/-! A chain that greets everyone, mounted at the root after one that only handles what is below a
path of its own. -/

def greeting : Mount :=
  ⟨⟨"//", none⟩, "greeting", [⟨"greet", .always, fun _ => .answer (.ofText 200 "hello")⟩]⟩

def guarded : Mount :=
  ⟨⟨"/api", none⟩, "guarded", [⟨"pass", .never, fun q => .pass q⟩]⟩

theorem isRoot_greeting : greeting.endpoint.IsRoot := ⟨by simp [greeting], rfl⟩

theorem answersAll_greeting : greeting.chain.AnswersAll := ⟨_, _, rfl, rfl, fun _ => ⟨_, _, rfl⟩⟩

theorem root_admits_unless_asterisk_authority :
    let r : Request := .ofUri ⟨none, some "a.example:80", ⟨"", none⟩⟩
    Uri.parse? "a.example:80" = some r.uri ∧ greeting.endpoint.admits r = true ∧
      ∀ response,
        (dispatch [guarded, greeting] none r).conclusion ≠ .responded .unmatched response := by
  intro r
  have hread : Uri.parse? "a.example:80" = some r.uri := by decide
  have hne : "a.example:80" ≠ "*" := by decide
  obtain ⟨hadmits, hmatched, -⟩ := root_admits_unless_asterisk [guarded, greeting] r hread
  refine ⟨hread, (hadmits _ isRoot_greeting).mpr hne, ?_⟩
  have hmem : greeting ∈ [guarded, greeting] := List.mem_cons_of_mem _ List.mem_cons_self
  exact hmatched hne greeting hmem isRoot_greeting answersAll_greeting

theorem root_refuses_asterisk :
    let r : Request := .ofUri .asterisk
    Uri.parse? "*" = some r.uri ∧ greeting.endpoint.IsRoot ∧ greeting.chain.AnswersAll ∧
      greeting.endpoint.admits r = false ∧
      (dispatch [greeting] none r).conclusion = .responded .unmatched .notFound :=
  ⟨by decide, isRoot_greeting, answersAll_greeting, rfl, rfl⟩

end Table
end ApiGateway
