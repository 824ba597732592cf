import ApiGateway.Chain.Run
import ApiGateway.Mount.Table

/-! Dispatch: the mounts that admit a request are tried in order until a chain answers or fails. -/

namespace ApiGateway

inductive Verdict where
  | handled (pipeline : String)
  | failed (pipeline : String) (error : ChainError)
  | unmatched

inductive Conclusion where
  | responded (verdict : Verdict) (response : Response)
  | panicked
  | stalled
  | overdue

structure Dispatch where
  visits : List (Nat × Visit)
  time : Nat
  conclusion : Conclusion

namespace Dispatch

def ofRun (position : Nat) (run : Run) (conclusion : Conclusion) : Dispatch :=
  ⟨run.visits.map (position, ·), run.time, conclusion⟩

def after (position : Nat) (run : Run) (dispatch : Dispatch) : Dispatch :=
  { dispatch with visits := run.visits.map (position, ·) ++ dispatch.visits }

def calls (dispatch : Dispatch) : List (Nat × Visit) :=
  dispatch.visits.filter fun visit => visit.2.called

end Dispatch

/-- The URI seen below a mount: what follows the mount path, and the query. A URI that has no path
of its own stays as it is. -/
def Uri.below (uri : Uri) (rest : String) : Uri :=
  (uri.withPath? (if rest = "" then "/" else rest)).getD uri

def Request.enter (r : Request) (mount : MountPath) (rest : String) : Request :=
  { r with uri := r.uri.below rest, mountPath := some mount.text }

namespace Table

/-- Tries mounts from a position and a time on. What a chain does to the URI ends with that chain;
whatever else it changes stays for the next one. -/
def dispatchFrom (deadline : Option Nat) : Nat → Table → Request → Nat → Dispatch
  | _, [], _, time => ⟨[], time, .responded .unmatched .notFound⟩
  | position, mount :: rest, r, time =>
    if mount.endpoint.admits r then
      match mount.endpoint.mountPath.strip? r.uri.path with
      | none => dispatchFrom deadline (position + 1) rest r time
      | some relative =>
        let pipeline := mount.chain.pipeline
        let run := mount.chain.run deadline (r.enter mount.endpoint.mountPath relative) time
        match run.ending with
        | .handled response => .ofRun position run (.responded (.handled pipeline) response)
        | .failed e => .ofRun position run (.responded (.failed pipeline e) .internalError)
        | .panicked => .ofRun position run .panicked
        | .stalled => .ofRun position run .stalled
        | .overdue => .ofRun position run .overdue
        | .unhandled left =>
          (dispatchFrom deadline (position + 1) rest { left with uri := r.uri } run.time).after
            position run
    else dispatchFrom deadline (position + 1) rest r time

def dispatch (table : Table) (deadline : Option Nat) (r : Request) : Dispatch :=
  table.dispatchFrom deadline 0 { r with arrivalUri := r.arrivalUri.or (some r.uri) } 0

end Table
end ApiGateway
