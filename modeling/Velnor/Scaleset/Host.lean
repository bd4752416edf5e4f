/-
  The two databases of one host and the calls the Scale Set code makes on
  them.  No transaction spans both, so a sequence of calls is a script, and a
  crash can fall between any two of them.

  `completeStagedAttemptRelease` (scaleset/lane.rs) is the second half of
  every release and the whole of its replay.
-/
import Velnor.Scaleset.ReleaseStage

namespace Velnor.Scaleset

open Relational Script
open Velnor.Control (Holder Token PermitLedger PermitRow UnixTime LedgerError OwnedReleaseOutcome
  i64OfU64)

/-- The host permit ledger beside the state database. -/
structure Host where
  ledger : PermitLedger
  db : StateDb

/-- Why the lane stopped; one case for each message of `acquire_pass` and of the
    recovery paths of `lane.rs`, with what the message names. -/
inductive LaneError where
  | store (error : StoreError)
  | ledger (error : LedgerError)
  -- `reserve_for_offer_with_token`
  | doubleStale (seen : Nat)
  -- `acquire_pass`
  | ledgerReturnedAnotherToken (holder : Holder)
  | ledgerAlreadyHolds (holder : Holder)
  -- `complete_staged_attempt_release`
  | permitOfAnotherAttempt (holder : Holder)
  | invalidReleaseTarget (holder : Holder)
  -- `require_dead_prior_owner`
  | noRecordedHolder (holder : Holder)
  | permitOfAnotherLane (holder : Holder)
  | noOwnerPid
  | ownerAlive (holder : Holder) (pid : Nat)
  -- `verify_recovery_containers`
  | containerNotOwned
  | containerUnproven
  | containerHasNoIdentity
  -- `verify_recovery_evidence`
  | workerWithoutIntent
  | containersWithoutRows (requestId : Int)
  -- `recover_staged_attempt_releases`
  | invalidStagedRelease (holder : Holder)
  | stagedReleaseHasNoWorker
  | stagedReleaseWorkerChanged (holder : Holder)
  | stagedReleaseHasContainers (holder : Holder)
  -- `recover_staged_attempt_acquisitions`
  | invalidStagedAcquire (holder : Holder)
  | stagedAcquireHasNoDemand
  | stagedAcquireProjectionChanged (holder : Holder)
  | stagedAcquireHasWorker (holder : Holder)
  | stagedBatchWithoutPermit (holder : Holder)
  | absentAcquireProjected (holder : Holder)
  | notTheReservedAttempt (holder : Holder)
  deriving DecidableEq, Repr

/-- A script over the two databases. -/
abbrev HostScript (α : Type) := Script Host LaneError α

/-- One ledger transaction. -/
def callLedger {α : Type} (f : PermitLedger → Except LedgerError α × PermitLedger) : HostScript α :=
  .perform fun host =>
    ((f host.ledger).1.mapError .ledger, { host with ledger := (f host.ledger).2 })

/-- One state-database transaction. -/
def callDb {α : Type} (f : StateDb → Except StoreError α × StateDb) : HostScript α :=
  .perform fun host => ((f host.db).1.mapError .store, { host with db := (f host.db).2 })

section Calls

variable {α : Type} {host : Host}

variable {a : α} {f : StateDb → Except StoreError α × StateDb} {db : StateDb} {I : Host → Prop}
  {Q : α → Host → Prop}

theorem run_callLedger {f : PermitLedger → Except LedgerError α × PermitLedger}
    {ledger : PermitLedger} (h : f host.ledger = (.ok a, ledger)) :
    (callLedger f).run host = (.ok a, { host with ledger := ledger }) := by
  rw [callLedger, run_perform, h]
  rfl

theorem run_callDb (h : f host.db = (.ok a, db)) :
    (callDb f).run host = (.ok a, { host with db := db }) := by
  rw [callDb, run_perform, h]
  rfl

theorem cut_callDb {β : Type} (h : f host.db = (.ok a, db)) (next : α → HostScript β) (n : Nat) :
    (callDb f >>= next).cut (n + 1) host = (next a).cut n { host with db := db } := by
  apply cut_perform_bind
  rw [h]
  rfl

/-- A ledger call is cut before or after; only a success goes on. -/
theorem safe_callLedger {f : PermitLedger → Except LedgerError α × PermitLedger} (hI : I host)
    (hI' : I { host with ledger := (f host.ledger).2 })
    (hQ : ∀ a, (f host.ledger).1 = .ok a → Q a { host with ledger := (f host.ledger).2 }) :
    Script.Safe I Q (callLedger f) host :=
  safe_perform hI hI' fun a ha => hQ a (mapError_ok ha)

theorem safe_callDb (hI : I host) (hI' : I { host with db := (f host.db).2 })
    (hQ : ∀ a, (f host.db).1 = .ok a → Q a { host with db := (f host.db).2 }) :
    Script.Safe I Q (callDb f) host :=
  safe_perform hI hI' fun a ha => hQ a (mapError_ok ha)

/-- A call whose answer is known. -/
theorem safe_callDb_of_ok (h : f host.db = (.ok a, db)) (hI : I host) (hI' : I { host with db })
    (hQ : Q a { host with db }) : Script.Safe I Q (callDb f) host := by
  apply safe_callDb hI
  · rw [h]
    exact hI'
  intro _ hb
  rw [h] at hb ⊢
  cases hb
  exact hQ

theorem succeeds_callLedger {f : PermitLedger → Except LedgerError α × PermitLedger}
    {ledger : PermitLedger} (h : f host.ledger = (.ok a, ledger)) (hI : I host)
    (hI' : I { host with ledger }) (hQ : Q a { host with ledger }) :
    Succeeds I Q (callLedger f) host :=
  succeeds_perform (run_callLedger h) hI hI' hQ

theorem succeeds_callDb (h : f host.db = (.ok a, db)) (hI : I host) (hI' : I { host with db })
    (hQ : Q a { host with db }) : Succeeds I Q (callDb f) host :=
  succeeds_perform (run_callDb h) hI hI' hQ

/-- A transaction: only one that goes through has to be judged. -/
theorem safe_transact {body : StateDb → Except StoreError (α × StateDb)} (hI : I host)
    (hok : ∀ a db, body host.db = .ok (a, db) → I { host with db } ∧ Q a { host with db }) :
    Script.Safe I Q (callDb fun db => transact db body) host := by
  rcases transact_cases host.db body with ⟨_, herror⟩ | ⟨a, db, htx, hbody⟩
  · apply safe_callDb hI
    · rw [herror]
      exact hI
    · intro _ hb
      rw [herror] at hb
      cases hb
  · exact safe_callDb_of_ok htx hI (hok a db hbody).1 (hok a db hbody).2

end Calls

/-! ## Completing a staged release -/

/-- What the lane makes of the ledger's answer. -/
def releasedBy (holder : Holder) : OwnedReleaseOutcome → Except LaneError Bool
  | .released => .ok true
  | .alreadyAbsent => .ok false
  | .staleAttempt => .error (.permitOfAnotherAttempt holder)

/-- The ledger half, then the projections. -/
def completeStagedAttemptRelease (stage : StagedAttemptRelease) (now : UnixTime) :
    HostScript Bool := do
  let outcome ← callLedger fun ledger =>
    ledger.releaseScalesetStagedOwned stage.row.holder stage.row.attemptToken
      stage.row.ledgerDemandState now
  let released ← liftM (releasedBy stage.row.holder outcome)
  liftM (refuseIf (releasesTo stage.row.ledgerDemandState = false)
    (LaneError.invalidReleaseTarget stage.row.holder))
  let generation ← Script.query fun host => host.ledger.generation
  let _ ← callDb fun db => db.finishAttemptRelease stage.row.holder generation
  return released

theorem completeStagedAttemptRelease_run {stage : StagedAttemptRelease} {now : UnixTime}
    {host : Host} {outcome : OwnedReleaseOutcome} {released finished : Bool}
    {ledger : PermitLedger} {db : StateDb}
    (hledger : host.ledger.releaseScalesetStagedOwned stage.row.holder stage.row.attemptToken
      stage.row.ledgerDemandState now = (.ok outcome, ledger))
    (hreleased : releasedBy stage.row.holder outcome = .ok released)
    (hfinish : host.db.finishAttemptRelease stage.row.holder ledger.generation
      = (.ok finished, db)) :
    (completeStagedAttemptRelease stage now).run host = (.ok released, ⟨ledger, db⟩) := by
  have htarget := refuseIf_pass (c := releasesTo stage.row.ledgerDemandState = false)
    (by simp [stage.row.ledger_check]) (LaneError.invalidReleaseTarget stage.row.holder)
  rw [completeStagedAttemptRelease, run_bind_of_ok (run_callLedger hledger),
    run_lift_bind hreleased, run_lift_bind htarget, run_query_bind,
    run_bind_of_ok (run_callDb hfinish)]
  rfl

end Velnor.Scaleset
