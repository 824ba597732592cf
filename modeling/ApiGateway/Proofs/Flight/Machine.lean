import ApiGateway.Proofs.Mount.Walk
import Mathlib.Logic.Function.Iterate

/-! A dispatch under way, one step at a time. The table it took its snapshot of, the URI kept aside
and the request in hand are three separate things; what came of the steps taken so far and what is
left to do make up the whole dispatch at every moment. -/

namespace ApiGateway

structure Place where
  position : Nat
  mount : Mount
  index : Nat

/-- Where a dispatch stands: before a mount, before the condition of a step, before the call of a
handler, inside a handler that has yet to settle, or at its end. -/
inductive Stage where
  | head (position : Nat) (r : Request)
  | check (place : Place) (r : Request)
  | call (place : Place) (step : Step) (r : Request)
  | wait (place : Place) (step : Step) (reaction : Reaction)
  | ended (conclusion : Conclusion)

structure Entry where
  position : Nat
  step : Step
  visit : Visit

structure Flight where
  table : Table
  arrival : Uri
  log : List Entry
  time : Nat
  stage : Stage

namespace Place

def step? (place : Place) : Option Step := place.mount.chain.steps[place.index]?

def next (place : Place) : Place := { place with index := place.index + 1 }

def entry (place : Place) (step : Step) (r : Request) (time : Nat) (called : Bool) : Entry :=
  ⟨place.position, step, ⟨place.index, step.action, r, time, called⟩⟩

def failure (place : Place) (error : ChainError) : Conclusion :=
  .responded (.failed place.mount.chain.pipeline error) .internalError

def settle (place : Place) (step : Step) : Except Fault Outcome → Except Conclusion Request
  | .ok (.answer response) => .error (.responded (.handled place.mount.chain.pipeline) response)
  | .ok (.pass next) => .ok next
  | .error (.error e) => .error (place.failure (.handler step.action e))
  | .error .panic => .error .panicked

end Place

def Request.below (r : Request) (arrival : Uri) (mount : MountPath) (rest : String) : Request :=
  { r with
    uri := (arrival.withPath? (if rest = "" then "/" else rest)).getD r.uri
    mountPath := some mount.text }

theorem Request.below_eq_enter {r : Request} {arrival : Uri} (h : r.uri = arrival)
    (mount : MountPath) (rest : String) : r.below arrival mount rest = r.enter mount rest := by
  subst h
  rfl

namespace Flight

def start (table : Table) (r : Request) : Flight := ⟨table, r.uri, [], 0, .head 0 r.recorded⟩

/-- Tests a mount. The path is stripped twice: of the request in hand by the test, and of the URI
kept aside for the chain. -/
def tryMount (f : Flight) (position : Nat) (mount : Mount) (r : Request) : Stage :=
  if mount.endpoint.admits r then
    match mount.endpoint.mountPath.strip? f.arrival.path with
    | none => .head (position + 1) r
    | some rest => .check ⟨position, mount, 0⟩ (r.below f.arrival mount.endpoint.mountPath rest)
  else .head (position + 1) r

def tryStep (f : Flight) (place : Place) (step : Step) (r : Request) : Flight :=
  match step.condition.evaluate r.view with
  | .error e =>
    { f with
      log := f.log ++ [place.entry step r f.time false]
      stage := .ended (place.failure (.evaluation step.action e)) }
  | .ok false =>
    { f with log := f.log ++ [place.entry step r f.time false], stage := .check place.next r }
  | .ok true => { f with stage := .call place step r }

def advance (f : Flight) : Flight :=
  match f.stage with
  | .head position r =>
    match f.table[position]? with
    | none => { f with stage := .ended (.responded .unmatched .notFound) }
    | some mount => { f with stage := f.tryMount position mount r }
  | .check place r =>
    match place.step? with
    | none => { f with stage := .head (place.position + 1) { r with uri := f.arrival } }
    | some step => f.tryStep place step r
  | .call place step r =>
    { f with
      log := f.log ++ [place.entry step r f.time true]
      stage := .wait place step (step.handler r) }
  | .wait place step (.settle delay result) =>
    match place.settle step result with
    | .ok next => { f with time := f.time + delay, stage := .check place.next next }
    | .error conclusion => { f with time := f.time + delay, stage := .ended conclusion }
  | .wait _ _ .stall => f
  | .ended _ => f

def visits (f : Flight) : List (Nat × Visit) := f.log.map fun entry => (entry.position, entry.visit)

def conclusion? (f : Flight) : Option Conclusion :=
  match f.stage with
  | .ended conclusion => some conclusion
  | .wait _ _ .stall => some .stalled
  | _ => none

end Flight

/-! ## Steps by cases -/

def Place.Within (table : Table) (place : Place) : Prop :=
  table[place.position]? = some place.mount ∧ place.index ≤ place.mount.chain.steps.length

def Entry.Within (table : Table) (entry : Entry) : Prop :=
  ∃ mount, table[entry.position]? = some mount ∧
    mount.chain.steps[entry.visit.step]? = some entry.step

def Stage.Within (table : Table) (arrival : Uri) : Stage → Prop
  | .head position r => position ≤ table.length ∧ r.uri = arrival
  | .check place _ => place.Within table
  | .call place step r =>
    place.Within table ∧ place.step? = some step ∧ step.condition.evaluate r.view = .ok true
  | .wait place step _ => place.Within table ∧ place.step? = some step
  | .ended _ => True

namespace Flight

/-- What holds between any two steps: whatever is in hand belongs to the one table, and before a
mount the request has the URI it arrived with. -/
structure Within (f : Flight) : Prop where
  stage : f.stage.Within f.table f.arrival
  log : ∀ entry ∈ f.log, entry.Within f.table

inductive Advances (f : Flight) : Flight → Prop where
  | unmatched {r} (hstage : f.stage = .head f.table.length r) :
      Advances f { f with stage := .ended (.responded .unmatched .notFound) }
  | pass {position r mount} (hstage : f.stage = .head position r)
      (hmount : f.table[position]? = some mount) (hadmits : mount.endpoint.admits r = false) :
      Advances f { f with stage := .head (position + 1) r }
  | enter {position r mount rest} (hstage : f.stage = .head position r)
      (hmount : f.table[position]? = some mount) (hadmits : mount.endpoint.admits r = true)
      (hrest : mount.endpoint.mountPath.strip? f.arrival.path = some rest) :
      Advances f
        { f with stage := .check ⟨position, mount, 0⟩ (r.enter mount.endpoint.mountPath rest) }
  | leave {place r} (hstage : f.stage = .check place r)
      (hindex : place.index = place.mount.chain.steps.length) :
      Advances f { f with stage := .head (place.position + 1) { r with uri := f.arrival } }
  | undecided {place r step e} (hstage : f.stage = .check place r)
      (hstep : place.step? = some step) (herror : step.condition.evaluate r.view = .error e) :
      Advances f
        { f with
          log := f.log ++ [place.entry step r f.time false]
          stage := .ended (place.failure (.evaluation step.action e)) }
  | skip {place r step} (hstage : f.stage = .check place r) (hstep : place.step? = some step)
      (hfalse : step.condition.evaluate r.view = .ok false) :
      Advances f
        { f with
          log := f.log ++ [place.entry step r f.time false]
          stage := .check place.next r }
  | take {place r step} (hstage : f.stage = .check place r) (hstep : place.step? = some step)
      (htrue : step.condition.evaluate r.view = .ok true) :
      Advances f { f with stage := .call place step r }
  | call {place r step} (hstage : f.stage = .call place step r) :
      Advances f
        { f with
          log := f.log ++ [place.entry step r f.time true]
          stage := .wait place step (step.handler r) }
  | hand {place step delay result next}
      (hstage : f.stage = .wait place step (.settle delay result))
      (hnext : place.settle step result = .ok next) :
      Advances f { f with time := f.time + delay, stage := .check place.next next }
  | conclude {place step delay result conclusion}
      (hstage : f.stage = .wait place step (.settle delay result))
      (hconclusion : place.settle step result = .error conclusion) :
      Advances f { f with time := f.time + delay, stage := .ended conclusion }
  | rest {conclusion} (hconclusion : f.conclusion? = some conclusion) : Advances f f

variable {f g : Flight} {table : Table} {r : Request}

theorem advances_head {position : Nat} {q : Request} (hw : f.Within)
    (hstage : f.stage = .head position q) : f.Advances f.advance := by
  -- the test of a mount strips the path of the request, whose URI is the one kept aside; so the
  -- second strip succeeds whenever the first does
  have hstageWithin := hw.stage
  rw [hstage] at hstageWithin
  obtain ⟨hle, huri⟩ := hstageWithin
  unfold advance
  simp only [hstage]
  cases hmount : f.table[position]? with
  | none =>
    have hlength : f.table.length ≤ position := List.getElem?_eq_none_iff.mp hmount
    have hposition : position = f.table.length := Nat.le_antisymm hle hlength
    exact .unmatched (hposition ▸ hstage)
  | some mount =>
    simp only [tryMount]
    cases hadmits : mount.endpoint.admits q with
    | false => exact .pass hstage hmount hadmits
    | true =>
      obtain ⟨rest, hrest⟩ := Endpoint.exists_strip_of_admits hadmits
      rw [huri] at hrest
      simp only [hrest, if_true, Request.below_eq_enter huri]
      exact .enter hstage hmount hadmits hrest

theorem advances_check {place : Place} {q : Request} (hw : f.Within)
    (hstage : f.stage = .check place q) : f.Advances f.advance := by
  have hplace := hw.stage
  rw [hstage] at hplace
  unfold advance
  simp only [hstage]
  cases hstep : place.step? with
  | none =>
    have hlength : place.mount.chain.steps.length ≤ place.index :=
      List.getElem?_eq_none_iff.mp hstep
    exact .leave hstage (Nat.le_antisymm hplace.2 hlength)
  | some step =>
    simp only [tryStep]
    cases hcondition : step.condition.evaluate q.view with
    | error e => exact .undecided hstage hstep hcondition
    | ok holds =>
      cases holds with
      | false => exact .skip hstage hstep hcondition
      | true => exact .take hstage hstep hcondition

theorem advances_wait {place : Place} {step : Step} {reaction : Reaction}
    (hstage : f.stage = .wait place step reaction) : f.Advances f.advance := by
  unfold advance
  simp only [hstage]
  cases reaction with
  | stall =>
    have hend : f.conclusion? = some .stalled := by simp only [conclusion?, hstage]
    exact .rest hend
  | settle delay result =>
    simp only
    cases hsettle : place.settle step result with
    | ok next => exact .hand hstage hsettle
    | error conclusion => exact .conclude hstage hsettle

theorem advances (hw : f.Within) : f.Advances f.advance := by
  cases hstage : f.stage with
  | head => exact advances_head hw hstage
  | check => exact advances_check hw hstage
  | wait => exact advances_wait hstage
  | call =>
    unfold advance
    simp only [hstage]
    exact .call hstage
  | ended conclusion =>
    unfold advance
    simp only [hstage]
    have hend : f.conclusion? = some conclusion := by simp only [conclusion?, hstage]
    exact .rest hend

end Flight
end ApiGateway
