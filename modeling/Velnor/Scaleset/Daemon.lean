/-
  What a Scale Set daemon reads from outside its two databases - its own pid,
  the clock, fresh uuids, process liveness, `docker inspect` - and the checks
  that stand between a permit left by another process and touching it
  (scaleset/lane.rs).

  Each check has the condition under which it passes.
-/
import Velnor.Scaleset.Host

namespace Velnor.Scaleset

open Relational
open Velnor.Control (Holder Token PermitLedger PermitRow PermitState PermitLane UnixTime u32OfI64)

/-- The two containers of one worker. -/
inductive WorkerContainer where
  | runner
  | dind
  deriving DecidableEq, Repr

/-- What `docker inspect --format {{.Id}}` and the ownership label of the
    container it found say. -/
structure InspectOutput where
  code : Int
  /-- `stdout.trim().is_empty()`. -/
  blank : Bool
  /-- `daemon_reports_missing(stderr)`. -/
  reportsMissing : Bool
  /-- `verify_container_ownership` accepts the label. -/
  owned : Bool
  deriving DecidableEq, Repr

/-- One Scale Set daemon process. -/
structure Daemon where
  scaleSetId : Int
  /-- `std::process::id()`. -/
  pid : UInt32
  /-- The time at the `n`-th ledger call made for a request. -/
  clock : Int → Nat → UnixTime
  /-- The uuid minted for a request. -/
  mint : Int → Token
  /-- `mint_batch_id`. -/
  batchId : String
  /-- `pid_alive`. -/
  pidAlive : Nat → Bool
  /-- The containers of the set's worker with a runner name. -/
  inspect : String → WorkerContainer → InspectOutput

namespace Daemon

/-! ## Containers -/

/-- Whether the container is there; a container that is not provably ours, or
    not provably absent, stops the recovery. -/
def containerPresent (inspect : InspectOutput) : Except LaneError Bool :=
  if inspect.code = 0 ∧ inspect.blank = false then
    if inspect.owned then .ok true else .error .containerNotOwned
  -- a failed inspect proves absence only when docker says so
  else if inspect.code ≠ 0 ∧ inspect.reportsMissing = false then .error .containerUnproven
  else if inspect.code = 0 then .error .containerHasNoIdentity
  else .ok false

/-- Read-only census of the runner/DinD pair of one worker. -/
def verifyRecoveryContainers (daemon : Daemon) (runnerName : String) :
    Except LaneError (Bool × Bool) := do
  let runner ← containerPresent (daemon.inspect runnerName .runner)
  let dind ← containerPresent (daemon.inspect runnerName .dind)
  return (runner, dind)

/-- `verify_recovery_evidence` for a request with neither a worker row nor an
    intent. -/
def verifyRecoveryEvidence (daemon : Daemon) (db : StateDb) (requestId : Int) :
    Except LaneError Unit := do
  refuseIf (db.workerByRequest requestId).isSome .workerWithoutIntent
  let present ← daemon.verifyRecoveryContainers (runnerName daemon.scaleSetId requestId)
  -- a container no row accounts for
  refuseIf (present ≠ (false, false)) (.containersWithoutRows requestId)

/-- Docker knows neither container of the worker. -/
def Gone (daemon : Daemon) (runnerName : String) : Prop :=
  ∀ container, (daemon.inspect runnerName container).code ≠ 0
    ∧ (daemon.inspect runnerName container).reportsMissing = true

/-- Docker knows neither container of the request's deterministic worker. -/
def Bare (daemon : Daemon) (requestId : Int) : Prop :=
  daemon.Gone (runnerName daemon.scaleSetId requestId)

theorem containerPresent_missing {inspect : InspectOutput} (hcode : inspect.code ≠ 0)
    (hmissing : inspect.reportsMissing = true) : containerPresent inspect = .ok false := by
  simp [containerPresent, hcode, hmissing]

theorem verifyRecoveryContainers_gone {daemon : Daemon} {runnerName : String}
    (h : daemon.Gone runnerName) :
    daemon.verifyRecoveryContainers runnerName = .ok (false, false) := by
  have hrunner := containerPresent_missing (h .runner).1 (h .runner).2
  have hdind := containerPresent_missing (h .dind).1 (h .dind).2
  simp only [verifyRecoveryContainers, bind_eq_ok, pure_eq_ok]
  exact ⟨false, hrunner, false, hdind, rfl⟩

theorem verifyRecoveryEvidence_ok {daemon : Daemon} {db : StateDb} {requestId : Int}
    (hworker : db.workerByRequest requestId = none) (hbare : daemon.Bare requestId) :
    daemon.verifyRecoveryEvidence db requestId = .ok () := by
  simp only [verifyRecoveryEvidence, bind_eq_ok, refuseIf_eq_ok]
  refine ⟨(), by simp [hworker], (false, false), verifyRecoveryContainers_gone hbare, ?_⟩
  exact not_not_intro rfl

/-! ## The prior owner -/

/-- The permit's recorded owner, once it is proven dead. -/
def requireDeadPriorOwner (daemon : Daemon) (ledger : PermitLedger) (holder : Holder) :
    Except LaneError (Nat × PermitState × Nat) := do
  let recorded ← orRefuse (ledger.permits.get? holder) (.noRecordedHolder holder)
  refuseIf (recorded.lane ≠ .scaleSet) (.permitOfAnotherLane holder)
  let oldPid ← orRefuse (recorded.pid.bind u32OfI64) .noOwnerPid
  refuseIf (oldPid = daemon.pid.toNat ∨ daemon.pidAlive oldPid = true) (.ownerAlive holder oldPid)
  return (ledger.generation, recorded.state, oldPid)

/-- The process `pid` is another one, and dead. -/
def Outlives (daemon : Daemon) (pid : Nat) : Prop :=
  pid ≠ daemon.pid.toNat ∧ daemon.pidAlive pid = false

theorem requireDeadPriorOwner_ok {daemon : Daemon} {ledger : PermitLedger} {holder : Holder}
    {row : PermitRow} {pid : Nat} (hrow : ledger.permits.get? holder = some row)
    (hlane : row.lane = .scaleSet) (hpid : row.pid.bind u32OfI64 = some pid)
    (hdead : daemon.Outlives pid) :
    daemon.requireDeadPriorOwner ledger holder = .ok (ledger.generation, row.state, pid) := by
  simp only [requireDeadPriorOwner, bind_eq_ok, refuseIf_eq_ok, orRefuse_eq_ok, pure_eq_ok]
  refine ⟨row, hrow, (), not_not_intro hlane, pid, hpid, (), ?_, rfl⟩
  rintro (hsame | halive)
  · exact hdead.1 hsame
  · rw [hdead.2] at halive
    cases halive

end Daemon

/-- The time a sample permit was written. -/
def permitTime : UnixTime := ⟨1000, by decide⟩

/-- A daemon of scale set 1; every other process is dead and Docker knows no
    container. -/
def soleDaemon (pid : UInt32) : Daemon where
  scaleSetId := 1
  pid := pid
  clock _ n := if n = 0 then permitTime else ⟨1001, by decide⟩
  mint requestId := "t" ++ requestId.repr
  batchId := "batch-1"
  pidAlive _ := false
  inspect _ _ := ⟨1, true, true, false⟩

end Velnor.Scaleset
