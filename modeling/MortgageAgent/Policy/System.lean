import MortgageAgent.Lib.Run
import MortgageAgent.Policy.Evaluation

/-!
# Interleaved releases and evaluations

Any number of `propose`, `approve`, `activate` and `withdraw` calls and of `evaluate` calls, for
any cases and contexts, run at once over one catalog. A label names who moves; a label that is
not enabled changes nothing. A call may fail at any of its transactions, which is then rolled
back.

* **`System`** / **`Label`** / **`step`** — the rows, every call's position, and the history.
* **`System.init`** — any catalog; no snapshot, no binding, no call.
-/

namespace MortgageAgent.Policy

open Runs

structure System where
  release : ReleaseDb
  evaluation : EvaluationDb
  releases : Nat → ReleaseState
  evaluations : Nat → EvaluationState
  log : List Event

inductive Label where
  | startPropose (r : Nat) (policyVersionId : Uuid) (proposedBy : String) (notes : Option String)
  | startApprove (r : Nat) (policyVersionId : Uuid) (approvedBy : String)
  | startActivate (r : Nat) (policyVersionId : Uuid)
  | startWithdraw (r : Nat) (policyVersionId : Uuid)
  | release (r : Nat) (env : Env)
  | releaseFails (r : Nat)
  | startEvaluate (c : Nat) (call : EvaluateCall)
  | evaluate (c : Nat) (env : Env)
  | evaluateFails (c : Nat)

def System.setRelease (s : System) (r : Nat) (state : ReleaseState) : System :=
  { s with releases := Function.update s.releases r state }

def System.setEvaluation (s : System) (c : Nat) (state : EvaluationState) : System :=
  { s with evaluations := Function.update s.evaluations c state }

/-- A call that has not started yet starts here. -/
def System.startRelease (s : System) (r : Nat) (state : ReleaseState) : System :=
  match s.releases r with
  | .idle => s.setRelease r state
  | _ => s

def step (deps : Deps) (s : System) : Label → System
  | .startPropose r policyVersionId proposedBy notes =>
    s.startRelease r (startPropose s.release policyVersionId proposedBy notes)
  | .startApprove r policyVersionId approvedBy =>
    s.startRelease r (startApprove s.release policyVersionId approvedBy)
  | .startActivate r policyVersionId =>
    s.startRelease r (startActivate s.release policyVersionId)
  | .startWithdraw r policyVersionId =>
    s.startRelease r (startWithdraw s.release policyVersionId)
  | .release r env =>
    { s with release := (releaseStep s.release env (s.releases r)).1 }.setRelease r
      (releaseStep s.release env (s.releases r)).2
  | .releaseFails r => s.setRelease r (.finished (.error .storeUnavailable))
  | .startEvaluate c call =>
    match s.evaluations c with
    | .idle => s.setEvaluation c (.readBinding call s.release.generation)
    | _ => s
  | .evaluate c env =>
    let m := evaluationStep deps s.release.catalog s.release.generation s.evaluation env c
      (s.evaluations c)
    { s with evaluation := m.db, log := s.log ++ m.events }.setEvaluation c m.state
  | .evaluateFails c => s.setEvaluation c (.finished (.error .storeUnavailable))

/-- Nothing evaluated yet, and no call under way. -/
def System.init (release : ReleaseDb) : System where
  release := release
  evaluation := { snapshots := .empty, bindings := .empty }
  releases := fun _ => .idle
  evaluations := fun _ => .idle
  log := []

end MortgageAgent.Policy
