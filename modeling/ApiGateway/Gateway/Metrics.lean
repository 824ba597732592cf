import ApiGateway.Mount.Dispatch

/-! Metrics: counters of responses and reloads, and how many durations were sampled. -/

namespace ApiGateway

inductive Series where
  | requests (pipeline outcome : String)
  | durations (pipeline : String)
  | reloads (succeeded : Bool)
deriving DecidableEq

def Series.text : Series → String
  | .requests pipeline outcome =>
    "gateway_requests_total\x7bpipeline=" ++ pipeline ++ ",outcome=" ++ outcome ++ "\x7d"
  | .durations pipeline => "gateway_request_duration_seconds\x7bpipeline=" ++ pipeline ++ "\x7d"
  | .reloads true => "gateway_reloads_total\x7bresult=success\x7d"
  | .reloads false => "gateway_reloads_total\x7bresult=failure\x7d"

namespace Verdict

/-- The pipeline a response is recorded under; `none` stands for no pipeline. -/
def pipelineLabel : Verdict → String
  | .handled pipeline => pipeline
  | .failed pipeline _ => pipeline
  | .unmatched => "none"

def outcomeLabel : Verdict → String
  | .handled _ => "handled"
  | .failed _ _ => "error"
  | .unmatched => "not_found"

end Verdict

abbrev Metrics := List (Series × Nat)

namespace Metrics

def count (series : Series) : Metrics → Nat
  | [] => 0
  | (s, n) :: rest => if s = series then n else count series rest

def increment (series : Series) : Metrics → Metrics
  | [] => [(series, 1)]
  | (s, n) :: rest => if s = series then (s, n + 1) :: rest else (s, n) :: increment series rest

theorem count_increment (series other : Series) (metrics : Metrics) :
    count other (metrics.increment series) =
      count other metrics + if other = series then 1 else 0 := by
  induction metrics with
  | nil =>
    by_cases h : series = other
    · simp only [increment, count, if_pos h, if_pos h.symm]
    · simp only [increment, count, if_neg h, if_neg (Ne.symm h)]
  | cons entry rest ih =>
    obtain ⟨s, n⟩ := entry
    by_cases hs : s = series
    · subst hs
      by_cases h : s = other
      · simp only [increment, count, if_true, if_pos h, if_pos h.symm]
      · simp only [increment, count, if_true, if_neg h, if_neg (Ne.symm h), Nat.add_zero]
    · by_cases h : s = other
      · subst h
        simp only [increment, count, if_neg hs, if_true, Nat.add_zero]
      · simp only [increment, count, if_neg hs, if_neg h, ih]

def recordVerdict (metrics : Metrics) (verdict : Verdict) : Metrics :=
  (metrics.increment (.requests verdict.pipelineLabel verdict.outcomeLabel)).increment
    (.durations verdict.pipelineLabel)

/-- A dispatch that came to no response leaves no trace. -/
def recordDispatch (metrics : Metrics) (dispatch : Dispatch) : Metrics :=
  match dispatch.conclusion with
  | .responded verdict _ => metrics.recordVerdict verdict
  | _ => metrics

def recordReload (metrics : Metrics) (succeeded : Bool) : Metrics :=
  metrics.increment (.reloads succeeded)

end Metrics
end ApiGateway
