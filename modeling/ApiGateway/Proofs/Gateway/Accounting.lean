import ApiGateway.Proofs.Gateway.History
import ApiGateway.Proofs.Mount.Response
import Mathlib.Algebra.BigOperators.Group.Finset.Piecewise

/-! The totals of a gateway are an account of its answers. Every answer adds the records of its own
and nothing else, so after any run a total is the number of such records in the history. -/

namespace ApiGateway

namespace Series

def isRequests : Series → Bool
  | .requests _ _ => true
  | _ => false

def isRequestsOf (pipeline : String) : Series → Bool
  | .requests other _ => other = pipeline
  | _ => false

end Series

namespace Metrics

def series (metrics : Metrics) : Finset Series := (metrics.map Prod.fst).toFinset

def total (family : Series → Bool) (metrics : Metrics) : Nat :=
  ∑ series ∈ metrics.series with family series, metrics.count series

/-- One more on the total of a series for every record of it, and no change elsewhere. -/
def Adds (before : Metrics) (records : List Series) (after : Metrics) : Prop :=
  ∀ series, after.count series = before.count series + records.count series

variable {before after later metrics : Metrics} {records others : List Series}
  {family : Series → Bool}

theorem Adds.refl (metrics : Metrics) : metrics.Adds [] metrics := fun _ => rfl

theorem Adds.trans (h : before.Adds records after) (h' : after.Adds others later) :
    before.Adds (records ++ others) later := by
  intro series
  rw [h', h, List.count_append, Nat.add_assoc]

theorem adds_increment (series : Series) (metrics : Metrics) :
    metrics.Adds [series] (metrics.increment series) := by
  intro other
  rw [count_increment, List.count_singleton]
  simp only [beq_iff_eq, @eq_comm _ other]

theorem count_eq_zero {series : Series} (h : series ∉ metrics.series) :
    metrics.count series = 0 := by
  simp only [Metrics.series, List.mem_toFinset] at h
  induction metrics with
  | nil => rfl
  | cons entry rest ih =>
    rw [List.map_cons, List.mem_cons, not_or] at h
    simp only [count, if_neg (Ne.symm h.1), ih h.2]

theorem total_eq_sum {among : Finset Series} (h : metrics.series ⊆ among) :
    metrics.total family = ∑ series ∈ among with family series, metrics.count series := by
  refine Finset.sum_subset (Finset.filter_subset_filter _ h) fun series hamong hnone => ?_
  refine count_eq_zero fun hmem => hnone ?_
  exact Finset.mem_filter.mpr ⟨hmem, (Finset.mem_filter.mp hamong).2⟩

theorem sum_count_records {among : Finset Series} (h : ∀ series ∈ records, series ∈ among) :
    ∑ series ∈ among with family series, records.count series = records.countP family := by
  induction records with
  | nil => simp only [List.count_nil, Finset.sum_const_zero, List.countP_nil]
  | cons first rest ih =>
    rw [List.forall_mem_cons] at h
    simp only [List.count_cons, List.countP_cons, Finset.sum_add_distrib, ih h.2, beq_iff_eq,
      Finset.sum_ite_eq, Finset.mem_filter, h.1, true_and]

theorem Adds.total_eq (h : before.Adds records after) (family : Series → Bool) :
    after.total family = before.total family + records.countP family := by
  -- one set of series to sum over, on both sides and for the records
  let among := before.series ∪ after.series ∪ records.toFinset
  have hbefore : before.series ⊆ among :=
    Finset.subset_union_left.trans Finset.subset_union_left
  have hafter : after.series ⊆ among :=
    Finset.subset_union_right.trans Finset.subset_union_left
  have hrecords : ∀ series ∈ records, series ∈ among := fun series hmem =>
    Finset.mem_union_right _ (List.mem_toFinset.mpr hmem)
  rw [total_eq_sum hbefore, total_eq_sum hafter, ← sum_count_records hrecords,
    ← Finset.sum_add_distrib]
  exact Finset.sum_congr rfl fun series _ => h series

end Metrics

/-! ## Records -/

def Verdict.records (verdict : Verdict) : List Series :=
  [.requests verdict.pipelineLabel verdict.outcomeLabel, .durations verdict.pipelineLabel]

def Answer.verdict? : Answer → Option Verdict
  | .served _ d | .dispatched d => d.verdict?
  | _ => none

def Answer.isReloaded : Answer → Bool
  | .reloaded _ => true
  | _ => false

def Operation.isReload : Operation → Bool
  | .reload _ => true
  | _ => false

def Answer.records (answer : Answer) : List Series :=
  match answer with
  | .reloaded _ => [.reloads true]
  | .refused _ => [.reloads false]
  | _ => answer.verdict?.toList.flatMap Verdict.records

theorem Metrics.adds_recordVerdict (metrics : Metrics) (verdict : Verdict) :
    metrics.Adds verdict.records (metrics.recordVerdict verdict) :=
  (adds_increment _ metrics).trans (adds_increment _ _)

theorem Metrics.adds_recordDispatch (metrics : Metrics) (d : Dispatch) :
    metrics.Adds (d.verdict?.toList.flatMap Verdict.records) (metrics.recordDispatch d) := by
  unfold recordDispatch Dispatch.verdict?
  cases d.conclusion with
  | responded verdict response =>
    rw [Option.toList_some, List.flatMap_singleton]
    exact adds_recordVerdict metrics verdict
  | panicked | stalled | overdue => exact Adds.refl metrics

theorem Metrics.recordDispatch_of_none {metrics : Metrics} {d : Dispatch}
    (h : d.verdict? = none) : metrics.recordDispatch d = metrics := by
  unfold recordDispatch
  unfold Dispatch.verdict? at h
  cases hconclusion : d.conclusion with
  | responded => rw [hconclusion] at h; cases h
  | panicked | stalled | overdue => rfl

namespace Service

variable {service : Service} {operations : List Operation}

theorem adds_perform (service : Service) (operation : Operation) :
    service.metrics.Adds (service.perform operation).1.records
      (service.perform operation).2.metrics := by
  cases operation with
  | request fresh r => exact service.metrics.adds_recordDispatch _
  | dispatch r => exact service.metrics.adds_recordDispatch _
  | reload config =>
    cases hreload : service.gateway.reload config with
    | ok gateway =>
      simp only [perform, hreload, Metrics.recordReload]
      exact Metrics.adds_increment _ _
    | error e =>
      simp only [perform, hreload, Metrics.recordReload]
      exact Metrics.adds_increment _ _
  | rebuild => exact Metrics.Adds.refl _

theorem adds_run (service : Service) (operations : List Operation) :
    service.metrics.Adds ((service.history operations).flatMap (·.2.records))
      (service.run operations).metrics := by
  induction operations generalizing service with
  | nil => exact Metrics.Adds.refl _
  | cons operation rest ih =>
    rw [history, List.flatMap_cons]
    exact (adds_perform service operation).trans (ih _)

theorem countP_records {family : Series → Bool} {marked : Operation × Answer → Bool}
    {entries : List (Operation × Answer)}
    (h : ∀ entry ∈ entries, entry.2.records.countP family = if marked entry then 1 else 0) :
    (entries.flatMap (·.2.records)).countP family = entries.countP marked := by
  induction entries with
  | nil => rfl
  | cons entry rest ih =>
    rw [List.forall_mem_cons] at h
    rw [List.flatMap_cons, List.countP_append, List.countP_cons, h.1, ih h.2, Nat.add_comm]

end Service

namespace Answer

theorem records_of_verdict? {answer : Answer} {verdict : Verdict}
    (h : answer.verdict? = some verdict) : answer.records = verdict.records := by
  cases answer with
  | served _ d | dispatched d =>
    unfold records
    rw [h, Option.toList_some, List.flatMap_singleton]
  | reloaded | refused | rebuilt => cases h

theorem countP_records_requests (answer : Answer) :
    answer.records.countP Series.isRequests = if answer.verdict?.isSome then 1 else 0 := by
  cases answer with
  | served _ d | dispatched d =>
    unfold records
    cases Answer.verdict? _ <;> rfl
  | reloaded | refused | rebuilt => rfl

theorem countP_records_durations (answer : Answer) (pipeline : String) :
    answer.records.countP (· == .durations pipeline) =
      answer.records.countP (Series.isRequestsOf pipeline) := by
  cases answer with
  | served _ d | dispatched d =>
    unfold records
    cases Answer.verdict? _ with
    | none => rfl
    | some verdict =>
      simp [Verdict.records, List.countP_cons, Series.isRequestsOf]
  | reloaded | refused | rebuilt => rfl

theorem countP_records_reloaded (answer : Answer) :
    answer.records.countP (· == .reloads true) = if answer.isReloaded then 1 else 0 := by
  cases answer with
  | served _ d | dispatched d =>
    unfold records
    cases Answer.verdict? _ <;> rfl
  | reloaded | refused | rebuilt => rfl

end Answer

/-! ## Walks on record -/

/-- The labels under which the walk of a request goes on record: the name of the chain where it
came to its response, which it did not fall through, or `none`. -/
inductive Table.Books (table : Table) (deadline : Option Nat) (r : Request) :
    String → String → Prop where
  | handled {position : Nat} {mount : Mount} (hmount : table[position]? = some mount)
      (hresponds : table.RespondsAt deadline r position (.handled mount.chain.pipeline))
      (hstays : ¬ table.FallsThrough r position) :
      Books table deadline r mount.chain.pipeline "handled"
  | failed {position : Nat} {mount : Mount} {e : ChainError}
      (hmount : table[position]? = some mount)
      (hresponds : table.RespondsAt deadline r position (.failed mount.chain.pipeline e))
      (hstays : ¬ table.FallsThrough r position) :
      Books table deadline r mount.chain.pipeline "error"
  | unanswered (hunanswered : table.Unanswered deadline r) :
      Books table deadline r "none" "not_found"

namespace Table

variable {table : Table} {deadline : Option Nat} {r : Request} {pipeline outcome : String}

theorem books_iff : table.Books deadline r pipeline outcome ↔
    ∃ verdict, table.Responds deadline r verdict ∧ verdict.pipelineLabel = pipeline ∧
      verdict.outcomeLabel = outcome := by
  constructor
  · rintro (⟨_, hresponds, _⟩ | ⟨_, hresponds, _⟩ | hunanswered)
    · exact ⟨_, responds_iff.mpr (.inl ⟨_, hresponds⟩), rfl, rfl⟩
    · exact ⟨_, responds_iff.mpr (.inl ⟨_, hresponds⟩), rfl, rfl⟩
    · exact ⟨_, responds_iff.mpr (.inr ⟨rfl, hunanswered⟩), rfl, rfl⟩
  · rintro ⟨verdict, hresponds, rfl, rfl⟩
    rcases responds_iff.mp hresponds with ⟨position, hat⟩ | ⟨rfl, hunanswered⟩
    · obtain ⟨mount, hmount, rfl | ⟨e, rfl⟩⟩ := hat.verdict_eq
      · exact .handled hmount hat hat.not_fallsThrough
      · exact .failed hmount hat hat.not_fallsThrough
    · exact .unanswered hunanswered

/-- A dispatch adds one response and one duration under the labels of its walk, if that comes to a
response in time, and nothing otherwise. -/
def Records (table : Table) (deadline : Option Nat) (r : Request) (verdict? : Option Verdict)
    (before after : Metrics) : Prop :=
  (∀ pipeline outcome, table.Books deadline r pipeline outcome →
    verdict?.isSome ∧ before.Adds [.requests pipeline outcome, .durations pipeline] after) ∧
  ((∀ pipeline outcome, ¬ table.Books deadline r pipeline outcome) →
    verdict? = none ∧ after = before)

theorem records_recordDispatch {d : Dispatch}
    (h : ∀ verdict, d.verdict? = some verdict ↔ table.Responds deadline r verdict)
    (metrics : Metrics) :
    table.Records deadline r d.verdict? metrics (metrics.recordDispatch d) := by
  constructor
  · intro pipeline outcome hbooks
    obtain ⟨verdict, hresponds, rfl, rfl⟩ := books_iff.mp hbooks
    have hverdict := (h verdict).mpr hresponds
    have hadds := metrics.adds_recordDispatch d
    rw [hverdict, Option.toList_some, List.flatMap_singleton] at hadds
    exact ⟨hverdict ▸ rfl, hadds⟩
  · intro hnone
    have hverdict : d.verdict? = none :=
      Option.eq_none_iff_forall_ne_some.mpr fun verdict hverdict =>
        hnone _ _ (books_iff.mpr ⟨verdict, (h verdict).mp hverdict, rfl, rfl⟩)
    exact ⟨hverdict, Metrics.recordDispatch_of_none hverdict⟩

end Table

namespace Service

def Accounts (service : Service) (operation : Operation) (answer : Answer) (next : Service) :
    Prop :=
  match operation with
  | .request fresh r =>
    service.gateway.table.Records (some service.router.deadline) (r.withId fresh) answer.verdict?
      service.metrics next.metrics
  | .dispatch r =>
    service.gateway.table.Records none r answer.verdict? service.metrics next.metrics
  | .reload config =>
    (∃ table, (Table.build service.gateway.registry config).result = .ok table ∧
      answer = .reloaded table.length ∧ next.gateway = { service.gateway with table, config } ∧
      service.metrics.Adds [.reloads true] next.metrics) ∨
    ∃ e, (Table.build service.gateway.registry config).result = .error e ∧
      answer = .refused e ∧ next.gateway = service.gateway ∧
      service.metrics.Adds [.reloads false] next.metrics
  | .rebuild => next.metrics = service.metrics

theorem accounts_perform (service : Service) (operation : Operation) :
    service.Accounts operation (service.perform operation).1 (service.perform operation).2 := by
  cases operation with
  | request fresh r =>
    rw [perform_request]
    exact Table.records_recordDispatch (fun _ => Table.verdict?_router_dispatch _) _
  | dispatch r => exact Table.records_recordDispatch (fun _ => Table.verdict?_dispatch) _
  | reload config =>
    have hadds := adds_perform service (.reload config)
    cases hbuild : (Table.build service.gateway.registry config).result with
    | ok table =>
      have hreload :
          service.gateway.reload config = .ok { service.gateway with table, config } := by
        rw [Gateway.reload, hbuild]
        rfl
      simp only [perform, hreload] at hadds ⊢
      exact .inl ⟨table, hbuild, rfl, rfl, hadds⟩
    | error e =>
      have hreload : service.gateway.reload config = .error e := by
        rw [Gateway.reload, hbuild]
        rfl
      simp only [perform, hreload] at hadds ⊢
      exact .inr ⟨e, hbuild, rfl, rfl, hadds⟩
  | rebuild => rfl

theorem count_records_reloads (service : Service) (operation : Operation) :
    (service.perform operation).1.records.count (.reloads true) +
        (service.perform operation).1.records.count (.reloads false) =
      if operation.isReload then 1 else 0 := by
  cases operation with
  | request | dispatch =>
    simp only [perform, Answer.records]
    cases Answer.verdict? _ <;> rfl
  | reload config =>
    cases hreload : service.gateway.reload config <;> simp only [perform, hreload] <;> rfl
  | rebuild => rfl

theorem count_reloads_run (service : Service) (operations : List Operation) :
    (service.run operations).metrics.count (.reloads true) +
        (service.run operations).metrics.count (.reloads false) =
      service.metrics.count (.reloads true) + service.metrics.count (.reloads false) +
        operations.countP Operation.isReload := by
  induction operations generalizing service with
  | nil => rfl
  | cons operation rest ih =>
    have hadds := adds_perform service operation
    have hone := count_records_reloads service operation
    have hrest := ih (service.perform operation).2
    rw [hadds, hadds] at hrest
    rw [List.countP_cons, ← hone]
    exact hrest.trans (by omega)

/-- After any run, the responses on record are as many as the dispatches that ran to one, and the
durations of every pipeline as many as its responses. The reloads on record are as many as there
were, and the successful ones those that replaced the table. What an operation adds is what its walk
came to. -/
theorem run_accounts_for_dispatches (gateway : Gateway) (operations : List Operation) :
    let history := (start gateway).history operations
    let metrics := ((start gateway).run operations).metrics
    metrics.total Series.isRequests = history.countP (fun entry => entry.2.verdict?.isSome) ∧
    (∀ pipeline,
      metrics.count (.durations pipeline) = metrics.total (Series.isRequestsOf pipeline)) ∧
    metrics.count (.reloads true) + metrics.count (.reloads false) =
      operations.countP Operation.isReload ∧
    metrics.count (.reloads true) = history.countP (fun entry => entry.2.isReloaded) ∧
    ∀ service operation,
      Accounts service operation (service.perform operation).1 (service.perform operation).2 := by
  intro history metrics
  have hadds : Metrics.Adds [] (history.flatMap (·.2.records)) metrics :=
    adds_run (start gateway) operations
  have hcount : ∀ series,
      metrics.count series = (history.flatMap (·.2.records)).countP (· == series) := fun series =>
    (hadds series).trans (Nat.zero_add _)
  have htotal : ∀ family,
      metrics.total family = (history.flatMap (·.2.records)).countP family := fun family =>
    (hadds.total_eq family).trans (Nat.zero_add _)
  refine ⟨?_, fun pipeline => ?_, ?_, ?_, accounts_perform⟩
  · rw [htotal, countP_records fun entry _ => entry.2.countP_records_requests]
  · rw [hcount, htotal, List.countP_flatMap, List.countP_flatMap]
    simp only [Function.comp_def, Answer.countP_records_durations]
  · exact (count_reloads_run (start gateway) operations).trans (Nat.zero_add _)
  · rw [hcount, countP_records fun entry _ => entry.2.countP_records_reloaded]

end Service
end ApiGateway
