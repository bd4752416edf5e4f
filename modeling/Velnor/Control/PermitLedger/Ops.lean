/-
  The ledger as a system of transactions (permit_ledger.rs).

  Every public mutating operation is one immediate transaction, so any number
  of processes calling them in any order is a list of `LedgerOp`s, and what
  another process does between two of them is another element of the list.
  `LedgerOp.step` runs one, `LedgerOp.event` reads off its answer what it did
  to occupancy, and `LedgerOp.step_refines` says the two agree.
-/
import Velnor.Control.PermitLedger.Reconcile

namespace Velnor.Control

open Relational Refines

namespace PermitLedger

/-! ## Epoch, capacity and the recovery claim -/

variable (ledger : PermitLedger)

/-- Start a new epoch: bump the generation and require a fresh reconcile. -/
def beginEpoch : Except LedgerError Nat × PermitLedger :=
  immediate ledger fun db =>
    -- `saturating_add(1)`
    let next := min (db.permitMeta.generation + 1) i64Max
    .commit (u64OfI64 next) { db with permitMeta := { db.permitMeta with generation := next } }

/-- Set the host-wide `N`. -/
def setMaxJobs (maxJobs : UInt32) : PermitLedger :=
  { ledger with permitMeta := { ledger.permitMeta with maxJobs := some maxJobs.toNat } }

/-- Adopt the first fallback capacity. -/
def setMaxJobsIfUnset (maxJobs : UInt32) : Except LedgerError Bool × PermitLedger :=
  immediate ledger fun db =>
    let adopted := db.permitMeta.maxJobs.isNone
    .commit adopted (if adopted then db.setMaxJobs maxJobs else db)

theorem setMaxJobsIfUnset_cases (maxJobs : UInt32) :
    (ledger.setMaxJobsIfUnset maxJobs).2 = ledger.setMaxJobs maxJobs
      ∨ (ledger.setMaxJobsIfUnset maxJobs).2 = ledger := by
  by_cases hunset : ledger.permitMeta.maxJobs.isNone = true
  · exact .inl (if_pos hunset)
  · exact .inr (if_neg hunset)

/-- Claim the shared Scale Set recovery role; the token survives a take-over. -/
def claimScalesetRecovery (isAlive : Nat → Bool) (uuid : Token) (currentPid : Nat) :
    Except LedgerError Token × PermitLedger :=
  immediate ledger fun db =>
    match db.recoveryClaim with
    | none => .commit uuid { db with recoveryClaim := some (uuid, currentPid) }
    | some (token, rawPid) =>
      if token.isEmpty then .fail (.staleAttempt "Scale Set recovery claim token")
      else
        match u32OfI64 rawPid with
        | none => .fail (.staleAttempt "Scale Set recovery claim owner pid")
        | some oldPid =>
          if oldPid = 0 then .fail (.staleAttempt "Scale Set recovery claim owner pid")
          else if isAlive oldPid then .fail (.recoveryClaimed oldPid)
          else .commit token { db with recoveryClaim := some (token, currentPid) }

/-- Release only this claim. -/
def releaseScalesetRecovery (token : Token) (ownerPid : Nat) :
    Except LedgerError Unit × PermitLedger :=
  immediate ledger fun db =>
    if db.recoveryClaim = some (token, (ownerPid : Int)) then
      .commit () { db with recoveryClaim := none }
    else .fail (.staleAttempt "Scale Set recovery claim")

theorem maxJobs_setMaxJobs (n : UInt32) : (ledger.setMaxJobs n).maxJobs = some n.toNat := by
  have hset : (ledger.setMaxJobs n).permitMeta.maxJobs = some (n.toNat : Int) := rfl
  rw [maxJobs, hset, Option.bind_some, u32OfI64_toNat]

/-- The recovery claim is a row of its own: taking it touches nothing else. -/
theorem claimScalesetRecovery_rest (isAlive : Nat → Bool) (uuid : Token) (pid : Nat) :
    ∃ claim, (ledger.claimScalesetRecovery isAlive uuid pid).2
      = { ledger with recoveryClaim := claim } := by
  refine immediate_of_commits
    (P := fun db : PermitLedger => ∃ claim, db = { ledger with recoveryClaim := claim })
    ⟨ledger.recoveryClaim, rfl⟩ fun token db' hbody => ?_
  repeat' split at hbody
  all_goals cases hbody
  all_goals exact ⟨_, rfl⟩

theorem releaseScalesetRecovery_rest (token : Token) (pid : Nat) :
    ∃ claim, (ledger.releaseScalesetRecovery token pid).2
      = { ledger with recoveryClaim := claim } := by
  refine immediate_of_commits
    (P := fun db : PermitLedger => ∃ claim, db = { ledger with recoveryClaim := claim })
    ⟨ledger.recoveryClaim, rfl⟩ fun _ db' hbody => ?_
  split at hbody
  · cases hbody
    exact ⟨none, rfl⟩
  · cases hbody

end PermitLedger

/-! ## Operations -/

/-- One call of a mutating operation, with what it takes from its environment:
    the clock, the uuid it mints, the pid of its process and `is_alive`. -/
inductive LedgerOp where
  | observeDemand (holder : Holder) (lane : PermitLane) (scope : String)
      (firstSeenUnix observedUnix : Nat)
  | parkDemand (holder : Holder) (now : UnixTime)
  | cancelDemand (holder : Holder) (now : UnixTime)
  | acquireAttempt (holder : Holder) (lane : PermitLane) (state : PermitState)
      (generation : Nat) (pid : Option Nat) (uuid : Token) (now : UnixTime)
  | acquireScalesetAttempt (holder : Holder) (state : PermitState) (generation : Nat)
      (pid : Option Nat) (attemptToken : Token) (now : UnixTime)
  | adoptForRedelivery (holder : Holder) (lane : PermitLane) (state : PermitState)
      (generation pid : Nat) (isAlive : Nat → Bool) (uuid : Token) (now : UnixTime)
  | rotateScalesetAttempt (holder : Holder) (state : PermitState) (generation previousPid : Nat)
      (previousToken : Option Token) (targetToken claimToken : Token) (currentPid : Nat)
      (now : UnixTime)
  | claimRecordedTerminalCleanup (holder : Holder) (lane : PermitLane) (attemptToken : Token)
      (currentPid : Nat) (now : UnixTime)
  | transitionOwned (holder : Holder) (state : PermitState) (generation : Nat)
      (attemptToken : Token) (currentPid : Nat) (now : UnixTime)
  | retainUncertainOwned (holder : Holder) (generation : Nat) (attemptToken : Token)
      (now : UnixTime)
  | retainRecordedFailureUncertainOwned (holder : Holder) (generation : Nat)
      (attemptToken : Token) (now : UnixTime)
  | retainUncertainAfterCleanupOwned (holder : Holder) (attemptToken : Token) (currentPid : Nat)
      (now : UnixTime)
  | releaseOwned (holder : Holder) (attemptToken : Token) (now : UnixTime)
  | releaseToEligibleOwned (holder : Holder) (attemptToken : Token) (now : UnixTime)
  | releaseCancelledOwned (holder : Holder) (attemptToken : Token) (now : UnixTime)
  | releaseNativeTerminalOwned (holder : Holder) (attemptToken : Token) (now : UnixTime)
  | releaseNativeCancelledOwned (holder : Holder) (attemptToken : Token) (now : UnixTime)
  | releaseScalesetStagedOwned (holder : Holder) (attemptToken : Token)
      (nextDemandState : DemandState) (now : UnixTime)
  | reconcile (alive : List AliveAttempt) (stagedRotations : List StagedRotation)
      (stagedReleases : List StagedRelease) (stagedAcquisitions : List StagedAcquisition)
      (now : UnixTime)
  | beginEpoch
  | setMaxJobs (maxJobs : UInt32)
  | setMaxJobsIfUnset (maxJobs : UInt32)
  | claimScalesetRecovery (isAlive : Nat → Bool) (uuid : Token) (currentPid : Nat)
  | releaseScalesetRecovery (token : Token) (ownerPid : Nat)

variable {op : LedgerOp} (ledger : PermitLedger)

namespace LedgerOp

/-- The database after the call. -/
def step (ledger : PermitLedger) : LedgerOp → PermitLedger
  | .observeDemand holder lane scope firstSeenUnix observedUnix =>
    (ledger.observeDemand holder lane scope firstSeenUnix observedUnix).2
  | .parkDemand holder now => (ledger.parkDemand holder now).2
  | .cancelDemand holder now => (ledger.cancelDemand holder now).2
  | .acquireAttempt holder lane state generation pid uuid now =>
    (ledger.acquireAttempt holder lane state generation pid uuid now).2
  | .acquireScalesetAttempt holder state generation pid token now =>
    (ledger.acquireScalesetAttemptWithToken holder state generation pid token now).2
  | .adoptForRedelivery holder lane state generation pid isAlive uuid now =>
    (ledger.adoptForRedelivery holder lane state generation pid isAlive uuid now).2
  | .rotateScalesetAttempt holder state generation previousPid previousToken targetToken claimToken
      currentPid now =>
      (ledger.rotateScalesetAttemptForRecovery holder state generation previousPid previousToken
        targetToken claimToken currentPid now).2
  | .claimRecordedTerminalCleanup holder lane token pid now =>
    (ledger.claimRecordedTerminalCleanup holder lane token pid now).2
  | .transitionOwned holder state generation token pid now =>
    (ledger.transitionOwned holder state generation token pid now).2
  | .retainUncertainOwned holder generation token now =>
    (ledger.retainUncertainOwned holder generation token now).2
  | .retainRecordedFailureUncertainOwned holder generation token now =>
    (ledger.retainRecordedFailureUncertainOwned holder generation token now).2
  | .retainUncertainAfterCleanupOwned holder token pid now =>
    (ledger.retainUncertainAfterCleanupOwned holder token pid now).2
  | .releaseOwned holder token now => (ledger.releaseOwned holder token now).2
  | .releaseToEligibleOwned holder token now => (ledger.releaseToEligibleOwned holder token now).2
  | .releaseCancelledOwned holder token now => (ledger.releaseCancelledOwned holder token now).2
  | .releaseNativeTerminalOwned holder token now =>
    (ledger.releaseNativeTerminalOwned holder token now).2
  | .releaseNativeCancelledOwned holder token now =>
    (ledger.releaseNativeCancelledOwned holder token now).2
  | .releaseScalesetStagedOwned holder token next now =>
    (ledger.releaseScalesetStagedOwned holder token next now).2
  | .reconcile alive rotations releases acquisitions now =>
    (ledger.reconcileAttemptsWithStagedAcquisitions alive rotations releases acquisitions now).2
  | .beginEpoch => ledger.beginEpoch.2
  | .setMaxJobs n => ledger.setMaxJobs n
  | .setMaxJobsIfUnset n => (ledger.setMaxJobsIfUnset n).2
  | .claimScalesetRecovery isAlive uuid pid => (ledger.claimScalesetRecovery isAlive uuid pid).2
  | .releaseScalesetRecovery token pid => (ledger.releaseScalesetRecovery token pid).2

open PermitLedger in
/-- What the call's answer says it did to occupancy: an acquire that handed a
    token to a holder without a permit is a grant, an adoption or a rotation
    that went through is a retoken, and a release that reported success
    (`Released` or `true`) is a release. -/
def event (ledger : PermitLedger) : LedgerOp → LedgerEvent
  | .acquireAttempt holder lane state generation pid uuid now =>
    acquireEvent ledger holder (ledger.acquireAttempt holder lane state generation pid uuid now).1
  | .acquireScalesetAttempt holder state generation pid token now =>
    acquireEvent ledger holder
      (ledger.acquireScalesetAttemptWithToken holder state generation pid token now).1
  | .adoptForRedelivery holder lane state generation pid isAlive uuid now =>
    adoptEvent holder
      (ledger.adoptForRedelivery holder lane state generation pid isAlive uuid now).1
  | .rotateScalesetAttempt holder state generation previousPid previousToken targetToken claimToken
      currentPid now =>
      rotateEvent holder targetToken
        (ledger.rotateScalesetAttemptForRecovery holder state generation previousPid previousToken
          targetToken claimToken currentPid now).1
  | .releaseOwned holder token now =>
    releaseEvent holder token (ledger.releaseOwned holder token now).1
  | .releaseToEligibleOwned holder token now =>
    releaseEvent holder token (ledger.releaseToEligibleOwned holder token now).1
  | .releaseCancelledOwned holder token now =>
    releaseEvent holder token (ledger.releaseCancelledOwned holder token now).1
  | .releaseNativeTerminalOwned holder token now =>
    ownedReleaseEvent holder token (ledger.releaseNativeTerminalOwned holder token now).1
  | .releaseNativeCancelledOwned holder token now =>
    ownedReleaseEvent holder token (ledger.releaseNativeCancelledOwned holder token now).1
  | .releaseScalesetStagedOwned holder token next now =>
    ownedReleaseEvent holder token (ledger.releaseScalesetStagedOwned holder token next now).1
  | _ => .internal

/-- The calls that can insert a permit row. -/
def isAcquire : LedgerOp → Bool
  | .acquireAttempt .. | .acquireScalesetAttempt .. => true
  | _ => false

/-! ## What a step does, and what it leaves alone -/

/-- The holder whose permit a call may write. -/
def target : LedgerOp → Option Holder
  | .acquireAttempt holder .. | .acquireScalesetAttempt holder .. | .adoptForRedelivery holder ..
  | .rotateScalesetAttempt holder .. | .claimRecordedTerminalCleanup holder ..
  | .transitionOwned holder .. | .retainUncertainOwned holder ..
  | .retainRecordedFailureUncertainOwned holder .. | .retainUncertainAfterCleanupOwned holder ..
  | .releaseOwned holder .. | .releaseToEligibleOwned holder .. | .releaseCancelledOwned holder ..
  | .releaseNativeTerminalOwned holder .. | .releaseNativeCancelledOwned holder ..
  | .releaseScalesetStagedOwned holder .. => some holder
  | _ => none

/-- The calls that write `permit_meta`. -/
def writesMeta : LedgerOp → Bool
  | .beginEpoch | .setMaxJobs _ | .setMaxJobsIfUnset _ | .reconcile .. => true
  | _ => false

open PermitLedger in
/-- Every other call is one lifecycle step of every holder, labelled by its
    answer, and leaves the rest as it was. -/
theorem step_moves (h : op.writesMeta = false) :
    Moves op.target (op.event ledger) ledger (op.step ledger) := by
  cases op with
  | beginEpoch | setMaxJobs | setMaxJobsIfUnset | reconcile => cases h
  | observeDemand => exact ledger.observeDemand_moves ..
  | parkDemand => exact ledger.parkDemand_moves ..
  | cancelDemand => exact ledger.cancelDemand_moves ..
  | acquireAttempt => exact ledger.acquireAttemptWithToken_moves ..
  | acquireScalesetAttempt holder state generation pid token now =>
    rw [event, step]
    rcases ledger.acquireScalesetAttemptWithToken_cases holder state generation pid token now
      with hcall | hcall <;> rw [hcall]
    · exact .refl ..
    · exact ledger.acquireAttemptWithToken_moves ..
  | adoptForRedelivery =>
    rw [event, step, PermitLedger.adoptForRedelivery]
    refine Moves.immediate (fun out db' hbody => ?_) (fun out hbody => ?_) fun _ => rfl
    · obtain ⟨-, rfl, hmoves, -⟩ := adoptForRedeliveryTx_commit hbody
      exact hmoves
    · cases out with
      | adopted token => exact absurd rfl (adoptForRedeliveryTx_drop hbody token)
      | _ => rfl
  | rotateScalesetAttempt =>
    rw [event, step, rotateScalesetAttemptForRecovery]
    split
    · exact .refl ..
    refine Moves.immediate (fun out db' hbody => ?_) (fun out hbody => ?_) fun _ => rfl
    · obtain ⟨-, _, -, ⟨rfl, -, rfl⟩ | ⟨rfl, -, -, -, -, hmoves, -⟩⟩ :=
        rotateScalesetAttemptTx_commit hbody
      · exact .refl ..
      · exact hmoves
    · cases out with
      | rotated => exact absurd rfl (rotateScalesetAttemptTx_drop hbody)
      | _ => rfl
  | claimRecordedTerminalCleanup =>
    rw [step, PermitLedger.claimRecordedTerminalCleanup]
    split
    · exact .refl ..
    · exact .immediate_internal fun _ _ => claimRecordedTerminalCleanupTx_commit
  | transitionOwned =>
    exact .immediate_internal fun _ _ hbody => (transitionForAttemptTx_commit hbody).2.1.toMoves
  | retainUncertainOwned =>
    exact .immediate_internal fun _ _ hbody =>
      (retainUncertainForAttemptTx_commit hbody).2.1.toMoves
  | retainRecordedFailureUncertainOwned =>
    exact .immediate_internal fun _ _ hbody => (retainRecordedFailureTx_commit hbody).2.toMoves
  | retainUncertainAfterCleanupOwned =>
    rw [step, PermitLedger.retainUncertainAfterCleanupOwned]
    split
    · exact .refl ..
    · exact .immediate_internal fun _ _ hbody =>
        (retainUncertainAfterCleanupTx_commit hbody).toMoves
  | releaseOwned | releaseToEligibleOwned | releaseCancelledOwned =>
    exact ledger.releaseWithDemandState_moves _ (by decide) ..
  | releaseNativeTerminalOwned | releaseNativeCancelledOwned =>
    exact ledger.releaseNativeOwnedWithTerminalDemand_moves _ _ rfl _
  | releaseScalesetStagedOwned => exact ledger.releaseScalesetStagedOwned_moves ..
  | claimScalesetRecovery isAlive uuid pid =>
    obtain ⟨_, hclaim⟩ := ledger.claimScalesetRecovery_rest isAlive uuid pid
    rw [step, hclaim]
    exact ⟨.of_tables rfl rfl rfl, of_tables rfl rfl⟩
  | releaseScalesetRecovery token pid =>
    obtain ⟨_, hclaim⟩ := ledger.releaseScalesetRecovery_rest token pid
    rw [step, hclaim]
    exact ⟨.of_tables rfl rfl rfl, of_tables rfl rfl⟩

theorem step_refines (op : LedgerOp) : Refines ledger (op.event ledger) (op.step ledger) := by
  cases op with
  | reconcile =>
    exact immediate_of_commits (P := Refines ledger .internal) (refl ledger)
      fun _ _ hbody => (PermitLedger.reconcileTx_recorded hbody).refines
  | beginEpoch | setMaxJobs => exact of_tables rfl rfl
  | setMaxJobsIfUnset n =>
    rcases ledger.setMaxJobsIfUnset_cases n with hstep | hstep <;> rw [step, hstep]
    · exact of_tables rfl rfl
    · exact refl ledger
  | _ => exact (step_moves ledger rfl).refines

theorem step_permitMeta (h : op.writesMeta = false) :
    (op.step ledger).permitMeta = ledger.permitMeta :=
  (step_moves ledger h).permitMeta

end LedgerOp

end Velnor.Control
