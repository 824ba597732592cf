import ApiGateway.Proofs.Config.Faults
import Mathlib.Data.List.Perm.Basic

/-! Checking a configuration is complete and exact. How often a name is reported as repeated depends
on how often it stands in the configuration, and not on where. -/

namespace ApiGateway

def ValidationError.unplaced : ValidationError → ValidationError
  | .emptyPipelineName _ => .emptyPipelineName 0
  | error => error

namespace Pipeline

def nameReports (seen names : List String) : ValidationError → Nat
  | .emptyPipelineName 0 => names.countP Text.isBlankText
  | .duplicatePipeline name =>
    if Text.isBlankText name then 0 else names.count name - if name ∈ seen then 0 else 1
  | _ => 0

theorem nameReports_cons (seen names : List String) (index : Nat) (name : String)
    (error : ValidationError) :
    nameReports seen (name :: names) error =
      ((nameViolations seen index name).map ValidationError.unplaced).count error +
        nameReports (name :: seen) names error := by
  unfold nameViolations
  cases error with
  | emptyPipelineName i =>
    cases i with
    | zero =>
      cases hblank : Text.isBlankText name <;> cases hname : seen.contains name <;>
        simp [nameReports, ValidationError.unplaced, hblank, Nat.add_comm]
    | succ i =>
      cases hblank : Text.isBlankText name <;> cases hname : seen.contains name <;>
        simp [nameReports, ValidationError.unplaced]
  | duplicatePipeline other =>
    by_cases hsame : name = other
    · subst hsame
      cases hblank : Text.isBlankText name <;> by_cases hname : name ∈ seen <;>
        simp [nameReports, ValidationError.unplaced, hblank, hname, Nat.add_comm]
    · cases hblank : Text.isBlankText name <;> by_cases hname : name ∈ seen <;>
        simp [nameReports, ValidationError.unplaced, hname, hsame, Ne.symm hsame]
  | _ =>
    cases hblank : Text.isBlankText name <;> cases hname : seen.contains name <;>
        simp [nameReports, ValidationError.unplaced]

theorem count_violations (seen : List String) (index : Nat) (pipelines : List Pipeline)
    (error : ValidationError) :
    ((violations seen index pipelines).map ValidationError.unplaced).count error =
      nameReports seen (pipelines.map name) error +
        ((pipelines.flatMap contentViolations).map ValidationError.unplaced).count error := by
  induction pipelines generalizing seen index with
  | nil => cases error with
    | emptyPipelineName i => cases i <;> rfl
    | duplicatePipeline name => simp [nameReports, violations]
    | _ => rfl
  | cons p pipelines ih =>
    rw [violations, List.map_cons, nameReports_cons seen _ index, List.flatMap_cons]
    simp only [List.map_append, List.count_append, ih]
    omega

theorem count_unplaced (errors : List ValidationError) (name : String) :
    (errors.map ValidationError.unplaced).count (.duplicatePipeline name) =
      errors.count (.duplicatePipeline name) := by
  rw [List.count_eq_countP, List.countP_map, List.count_eq_countP]
  refine List.countP_congr fun error _ => ?_
  cases error <;> simp [ValidationError.unplaced]

theorem nameReports_perm {names others : List String} (h : names.Perm others)
    (error : ValidationError) :
    nameReports [] names error = nameReports [] others error := by
  cases error with
  | emptyPipelineName i => cases i with
    | zero => exact h.countP_eq _
    | succ i => rfl
  | duplicatePipeline name => simp only [nameReports, h.count_eq]
  | _ => rfl

theorem violations_perm {pipelines others : List Pipeline} (h : pipelines.Perm others) :
    ((violations [] 0 pipelines).map ValidationError.unplaced).Perm
      ((violations [] 0 others).map ValidationError.unplaced) := by
  refine List.perm_iff_count.mpr fun error => ?_
  have hcontent := ((h.flatMap_right contentViolations).map ValidationError.unplaced).count_eq error
  rw [count_violations, count_violations, nameReports_perm (h.map name), hcontent]

theorem duplicate_not_mem_content (p : Pipeline) (name : String) :
    .duplicatePipeline name ∉ p.contentViolations := by
  intro h
  have hlisted : (p.Faulty [] 0).ListedBy (nameViolations [] 0 p.name ++ p.contentViolations) :=
    listedBy_faulty (fun _ => Iff.rfl) p 0
  obtain ⟨place, hfault⟩ := hlisted.mem_iff.mp (List.mem_append_right _ h)
  cases hfault with
  | repeatedName _ hname => cases hname

theorem count_duplicate (pipelines : List Pipeline) (name : String) :
    (violations [] 0 pipelines).count (.duplicatePipeline name) =
      if Text.isBlankText name then 0 else (pipelines.map Pipeline.name).count name - 1 := by
  have hnone : ((pipelines.flatMap contentViolations).map ValidationError.unplaced).count
      (.duplicatePipeline name) = 0 := by
    rw [count_unplaced, List.count_eq_zero, List.mem_flatMap]
    exact fun ⟨p, _, hmem⟩ => duplicate_not_mem_content p name hmem
  rw [← count_unplaced, count_violations, hnone, nameReports, if_neg List.not_mem_nil, Nat.add_zero]

end Pipeline

namespace Config

variable {c : Config}

theorem validate_eq_ok : c.validate = .ok () ↔ c.violations = [] := by
  unfold validate
  split
  next h => exact iff_of_true rfl h
  next h => exact iff_of_false nofun h

theorem validate_eq_error {errors : List ValidationError} :
    c.validate = .error errors ↔ c.violations = errors ∧ errors ≠ [] := by
  unfold validate
  split
  next h => exact ⟨nofun, fun ⟨he, hne⟩ => absurd (he.symm.trans h) hne⟩
  next h =>
    rw [Except.error.injEq]
    exact ⟨fun he => ⟨he, fun hnil => h (he.trans hnil)⟩, fun he => he.1⟩

theorem count_duplicate (c : Config) (name : String) :
    c.violations.count (.duplicatePipeline name) =
      if Text.isBlankText name then 0 else (c.pipelines.map Pipeline.name).count name - 1 := by
  have htls : (tlsViolations c.tls).count (.duplicatePipeline name) = 0 := by
    refine List.count_eq_zero.mpr fun hmem => ?_
    obtain ⟨_, _, -, ⟨-, -, h⟩ | ⟨-, -, h⟩⟩ := (listedBy_tls c.tls).mem_iff.mp hmem <;> cases h
  have hbind : (bindViolations c.listener).count (.duplicatePipeline name) = 0 := by
    refine List.count_eq_zero.mpr fun hmem => ?_
    obtain ⟨_, -, -, h⟩ := (listedBy_bindAddress c.listener).mem_iff.mp hmem
    cases h
  rw [violations, List.count_append, List.count_append, htls, hbind, Pipeline.count_duplicate]
  rfl

theorem violations_perm {pipelines : List Pipeline} (h : pipelines.Perm c.pipelines) :
    (({ c with pipelines } : Config).violations.map ValidationError.unplaced).Perm
      (c.violations.map ValidationError.unplaced) := by
  simp only [violations, List.map_append]
  exact ((Pipeline.violations_perm h).append_right _).append_right _

/-- Checking finds all that is wrong and nothing else, in document order; of a name that is not
blank every occurrence but the first is reported. The order of the pipelines is no matter, but for
the positions in the reports of blank names. The address to bind to is a host and a port whether or
not it is a socket address. -/
theorem validate_lists_faults (c : Config) :
    (c.validate = .ok () ↔ c.WellFormed) ∧
      (¬ c.WellFormed → ∃ errors, c.validate = .error errors ∧ c.Faulty.ListedBy errors ∧
        ∀ name, errors.count (.duplicatePipeline name) =
          if Text.isBlankText name then 0 else (c.pipelines.map Pipeline.name).count name - 1) ∧
      (∀ errors, c.validate = .error errors → ∀ pipelines : List Pipeline,
        pipelines.Perm c.pipelines → ∃ others,
          ({ c with pipelines } : Config).validate = .error others ∧
            (others.map ValidationError.unplaced).Perm (errors.map ValidationError.unplaced)) ∧
      ∀ address : String, isSocketAddress address.toList = true → IsHostAndPort address := by
  refine ⟨validate_eq_ok.trans violations_eq_nil_iff, fun hwrong => ?_, ?_, fun address h => ?_⟩
  · have hne : c.violations ≠ [] := mt violations_eq_nil_iff.mp hwrong
    exact ⟨c.violations, validate_eq_error.mpr ⟨rfl, hne⟩, listedBy_faulty c, count_duplicate c⟩
  · intro errors herrors pipelines hperm
    obtain ⟨rfl, hne⟩ := validate_eq_error.mp herrors
    have hviolations := violations_perm hperm
    refine ⟨_, validate_eq_error.mpr ⟨rfl, fun hnil => hne ?_⟩, hviolations⟩
    rw [hnil, List.map_nil, List.nil_perm, List.map_eq_nil_iff] at hviolations
    exact hviolations
  · rw [← isBindAddress_iff, isBindAddress, h, Bool.true_or]

end Config
end ApiGateway
