/-
  The Scale Set tables of the state database (store/migrations.rs, v21-v28)
  and the rows the stores of `scaleset/` keep in them: demand, workers,
  provision intents, acquire batches and the three journals of permit
  transitions that span this database and the host permit ledger.

  A journal row carries the facts its insert checked: its holder is the one
  of its own request, and its `CHECK` columns are in range.

  Enumerated text columns are enumerations and JSON columns are the lists
  they encode.  `created_at` and `updated_at` are left out: nothing here
  reads them.
-/
import Velnor.Control.PermitLedger.Release
import Velnor.Relational.Script

namespace Velnor.Scaleset

open Relational String
open Velnor.Control (Holder Token PermitLedger PermitState PermitLane UnixTime LedgerError i64OfU64)

/-- The ledger's own demand states, under the name the Scale Set code imports
    them by. -/
abbrev PermitDemandState := Velnor.Control.DemandState

/-! ## Enumerations -/

/-- Demand-row lifecycle, `scaleset_demand.state`. -/
inductive DemandState where
  | observed
  | eligible
  | granted
  | acquireIntent
  | acquired
  | uncertain
  | canceledPending
  | canceledAcquired
  | canceledDone
  | provisionIntent
  | declined
  | terminal
  deriving DecidableEq, Repr

namespace DemandState

/-- States that hold (or are owed) a ledger permit for this set. -/
def holdsPermit : DemandState → Bool
  | .granted | .acquireIntent | .acquired | .uncertain | .canceledPending | .canceledAcquired
  | .provisionIntent => true
  | .observed | .eligible | .canceledDone | .declined | .terminal => false

/-- The states a staged release may project:
    `CHECK (next_demand_state IN ('eligible', 'canceled_done', 'terminal'))`. -/
def releaseTarget : DemandState → Bool
  | .eligible | .canceledDone | .terminal => true
  | _ => false

/-- Whether `finish_attempt_release` may move a row in `current` to the target. -/
def movesTo (current next : DemandState) : Bool :=
  match next with
  | .eligible => current.holdsPermit
  | .canceledDone => current = .canceledPending
  | .terminal => true
  | _ => false

end DemandState

/-- The ledger states a staged release may leave:
    `CHECK (ledger_demand_state IN ('eligible', 'cancelled', 'terminal'))`. -/
def releasesTo : PermitDemandState → Bool
  | .eligible | .cancelled | .terminal => true
  | .granted | .waiting => false

/-- `scaleset_workers.worker_state`. -/
inductive ScaleSetWorkerState where
  | observed
  | eligible
  | reserved
  | acquireIntent
  | acquired
  | uncertain
  | provisionIntent
  | dindReady
  | runnerConnected
  | running
  | terminal
  | diagnosticExport
  | ownedCleanup
  | permitReleased
  deriving DecidableEq, Repr

/-- `matches!(state, "owned_cleanup" | "permit_released")`. -/
def ScaleSetWorkerState.cleanupReady : ScaleSetWorkerState → Bool
  | .ownedCleanup | .permitReleased => true
  | _ => false

/-- Acquire-batch lifecycle. -/
inductive BatchState where
  | intended
  | resolved
  | uncertain
  deriving DecidableEq, Repr

/-! ## Identity -/

/-- Ledger holder for one scale-set acquisition:
    `scaleset/{scale_set_id}/{request_id}`. -/
def permitHolder (scaleSetId requestId : Int) : Holder :=
  "scaleset/" ++ scaleSetId.repr ++ "/" ++ requestId.repr

/-- Stable runner name per request: `velnor-{scale_set_id}-{request_id}`. -/
def runnerName (scaleSetId requestId : Int) : String :=
  "velnor-" ++ scaleSetId.repr ++ "-" ++ requestId.repr

theorem isDigit_of_mem_repr {m : Nat} {c : Char} (h : c ∈ m.repr.toList) : c.isDigit = true :=
  Nat.isDigit_of_mem_toDigits (b := 10) (n := m) (by decide) (by decide)
    (by simpa [Nat.repr] using h)

theorem slash_notMem_repr (n : Int) : '/' ∉ n.repr.toList := by
  intro hmem
  cases n with
  | ofNat m => cases isDigit_of_mem_repr (m := m) hmem
  | negSucc =>
    rw [Int.repr, toList_append, List.mem_append] at hmem
    rcases hmem with hminus | hmem
    · revert hminus
      decide
    · cases isDigit_of_mem_repr hmem

/-- Decimal digits read back as the number they were written from. -/
theorem natRepr_inj {m n : Nat} (h : m.repr = n.repr) : m = n := by
  have hdigits : Nat.toDigits 10 m = Nat.toDigits 10 n := by
    simpa [Nat.repr] using congrArg toList h
  rw [← Nat.ofDigitChars_ten_toDigits (n := m), hdigits, Nat.ofDigitChars_ten_toDigits]

theorem intRepr_inj {a b : Int} (h : a.repr = b.repr) : a = b := by
  -- no number written without a sign starts with one
  have hsign : ∀ m n : Nat, m.repr ≠ "-" ++ n.repr := fun m n heq => by
    have hminus : '-' ∈ ("-" ++ n.repr).toList := by
      rw [toList_append]
      exact List.mem_cons_self
    cases isDigit_of_mem_repr (heq ▸ hminus)
  rcases a with m | m <;> rcases b with n | n
  · exact congrArg Int.ofNat (natRepr_inj h)
  · exact absurd h (hsign m n.succ)
  · exact absurd h.symm (hsign n m.succ)
  · have htail : m.succ.repr = n.succ.repr := (append_right_inj "-").mp h
    exact congrArg Int.negSucc (Nat.succ.inj (natRepr_inj htail))

/-- Two requests never share a holder: the set ends at the only slash after it. -/
theorem permitHolder_inj {s s' r r' : Int} (h : permitHolder s r = permitHolder s' r') :
    s = s' ∧ r = r' := by
  have hchars := congrArg toList h
  simp only [permitHolder, toList_append, List.append_assoc] at hchars
  have htail : s.repr.toList ++ '/' :: r.repr.toList = s'.repr.toList ++ '/' :: r'.repr.toList :=
    List.append_cancel_left hchars
  obtain ⟨hs, -, hr⟩ := (List.append_cons_inj_of_notMem (slash_notMem_repr s)
    (slash_notMem_repr r)).mp htail
  exact ⟨intRepr_inj (toList_injective hs), intRepr_inj (toList_injective hr)⟩

/-! ## Rows -/

/-- One `scaleset_demand` row, without the offer columns. -/
structure Demand where
  requestId : Int
  scaleSetId : Int
  sequence : Int
  state : DemandState
  declineReason : Option String
  generation : Int
  permitAttemptToken : Option Token
  deriving DecidableEq, Repr

/-- One `scaleset_workers` row, without the Docker columns. -/
structure WorkerRow where
  ownershipId : String
  operationId : String
  requestId : Option Int
  runnerName : String
  workerState : ScaleSetWorkerState
  generation : Int
  permitAttemptToken : Option Token
  deriving DecidableEq, Repr

/-- One `scaleset_provision_intents` row, as far as a lookup by request goes. -/
structure ProvisionIntent where
  operationId : String
  ownershipId : String
  scaleSetId : Int
  requestId : Int
  deriving DecidableEq, Repr

/-- One `scaleset_acquire_batches` row. -/
structure AcquireBatch where
  batchId : String
  scaleSetId : Int
  requestIds : List Int
  holders : List Holder
  /-- Owner tokens parallel to the requests; a legacy batch has none. -/
  attemptTokens : Option (List (Option Token))
  state : BatchState
  uncertain : Bool
  generation : Int
  deriving DecidableEq, Repr

/-- One `scaleset_attempt_acquires` row: the token is recorded here before the
    permit database can insert its row. -/
structure StagedAttemptAcquire where
  holder : Holder
  scaleSetId : Int
  requestId : Int
  previousAttemptToken : Option Token
  targetAttemptToken : Token
  holder_eq : holder = permitHolder scaleSetId requestId
  target_nonempty : targetAttemptToken ≠ ""
  deriving DecidableEq

/-- One `scaleset_attempt_releases` row: the journal is written before the
    host permit is deleted. -/
structure ReleaseRow where
  holder : Holder
  scaleSetId : Int
  requestId : Int
  attemptToken : Token
  ledgerDemandState : PermitDemandState
  nextDemandState : Option DemandState
  workerOwnershipId : Option String
  holder_eq : holder = permitHolder scaleSetId requestId
  token_nonempty : attemptToken ≠ ""
  ledger_check : releasesTo ledgerDemandState = true
  next_check : nextDemandState.all DemandState.releaseTarget = true
  deriving DecidableEq

/-- One `scaleset_attempt_release_batches` row: the batch a staged release
    helps to resolve. -/
structure ReleaseBatchRow where
  holder : Holder
  batchId : String
  resolveUncertain : Bool
  deriving DecidableEq, Repr

/-- A release stage joined with its batch. -/
structure StagedAttemptRelease where
  row : ReleaseRow
  batchId : Option String
  batchUncertain : Bool
  deriving DecidableEq

/-! ## The database -/

abbrev DemandTable := Table Demand Demand.requestId Demand.sequence

abbrev WorkerTable := Table WorkerRow WorkerRow.ownershipId WorkerRow.operationId

abbrev IntentTable := Table ProvisionIntent ProvisionIntent.operationId ProvisionIntent.ownershipId

abbrev BatchTable := Table AcquireBatch AcquireBatch.batchId AcquireBatch.batchId

abbrev AcquireTable :=
  Table StagedAttemptAcquire StagedAttemptAcquire.holder
    (fun row => (row.scaleSetId, row.requestId))

abbrev ReleaseTable :=
  Table ReleaseRow ReleaseRow.holder (fun row => (row.scaleSetId, row.requestId))

abbrev ReleaseBatchTable := Table ReleaseBatchRow ReleaseBatchRow.holder ReleaseBatchRow.holder

/-- The Scale Set part of the state database. -/
structure StateDb where
  demands : DemandTable
  workers : WorkerTable
  intents : IntentTable
  batches : BatchTable
  acquires : AcquireTable
  releases : ReleaseTable
  releaseBatches : ReleaseBatchTable
  /-- Holders with a pending row in `scaleset_attempt_rotations`. -/
  rotations : List Holder
  deriving DecidableEq

namespace StateDb

def empty : StateDb := ⟨.empty, .empty, .empty, .empty, .empty, .empty, .empty, []⟩

/-- `WHERE scale_set_id = ?1 AND request_id = ?2`. -/
def demandOf (db : StateDb) (scaleSetId requestId : Int) : Option Demand :=
  (db.demands.get? requestId).filter fun row => row.scaleSetId = scaleSetId

/-- `WHERE ownership_id = ?1 AND request_id = ?2`. -/
def workerOf (db : StateDb) (ownershipId : String) (requestId : Int) : Option WorkerRow :=
  (db.workers.get? ownershipId).filter fun row => row.requestId = some requestId

/-- `WorkerRegistry::get_by_request`. -/
def workerByRequest (db : StateDb) (requestId : Int) : Option WorkerRow :=
  db.workers.rows.find? fun row => row.requestId = some requestId

/-- `ProvisionIntentStore::get_by_request`, up to which of several it picks. -/
def intentByRequest (db : StateDb) (scaleSetId requestId : Int) : Option ProvisionIntent :=
  db.intents.rows.find? fun row => row.scaleSetId = scaleSetId ∧ row.requestId = requestId

theorem demandOf_eq_some_iff {db : StateDb} {scaleSetId requestId : Int} {row : Demand} :
    db.demandOf scaleSetId requestId = some row
      ↔ db.demands.get? requestId = some row ∧ row.scaleSetId = scaleSetId := by
  simp [demandOf, Option.filter_eq_some_iff]

theorem workerOf_eq_some_iff {db : StateDb} {ownershipId : String} {requestId : Int}
    {row : WorkerRow} :
    db.workerOf ownershipId requestId = some row
      ↔ db.workers.get? ownershipId = some row ∧ row.requestId = some requestId := by
  simp [workerOf, Option.filter_eq_some_iff]

end StateDb

/-! ## Journal inserts -/

/-- Two acquire stages of one request are stages of one holder, so the second
    `UNIQUE` constraint refuses nothing the key does not. -/
theorem StagedAttemptAcquire.holder_eq_of_request {stage other : StagedAttemptAcquire}
    (h : (other.scaleSetId, other.requestId) = (stage.scaleSetId, stage.requestId)) :
    other.holder = stage.holder := by
  obtain ⟨hset, hreq⟩ := Prod.mk.inj h
  rw [other.holder_eq, stage.holder_eq, hset, hreq]

theorem ReleaseRow.holder_eq_of_request {row other : ReleaseRow}
    (h : (other.scaleSetId, other.requestId) = (row.scaleSetId, row.requestId)) :
    other.holder = row.holder := by
  obtain ⟨hset, hreq⟩ := Prod.mk.inj h
  rw [other.holder_eq, row.holder_eq, hset, hreq]

/-! ## Errors -/

/-- Why a store call stopped; one case for each message of `demand.rs` and
    `intents.rs`, with what the message names. -/
inductive StoreError where
  /-- A constraint of the database refused the statement. -/
  | storage
  -- `stage_attempt_release`
  | invalidRelease (holder : Holder)
  | acquirePending (holder : Holder)
  | rotationPending (holder : Holder)
  | demandHasAnotherToken (holder : Holder)
  | workerMissing (holder : Holder)
  | workerNotReady (holder : Holder)
  | releaseBelongsToAnother (holder : Holder)
  | releaseBatchChanged (holder : Holder)
  -- `verify_release_batch_member`
  | releaseBatchMissing (batchId : String)
  | notInReleaseBatch (requestId : Int) (batchId : String)
  | releaseBatchHasNoTokens
  | releaseBatchTokenDiffers (requestId : Int) (batchId : String)
  -- `finish_attempt_release`
  | demandVanished (holder : Holder)
  | demandChangedAttempt (holder : Holder)
  | demandCannotMove (holder : Holder) (current next : DemandState)
  | demandMoved (holder : Holder)
  | workerVanished (holder : Holder)
  | workerChanged (holder : Holder)
  | workerMoved (holder : Holder)
  | releaseBatchMoved (holder : Holder)
  | releaseBatchVanished (batchId : String)
  | releaseMoved (holder : Holder)
  -- `stage_attempt_acquire`
  | invalidAcquire (holder : Holder)
  | releasePending (holder : Holder)
  | acquireDemandMissing (holder : Holder)
  | acquireProjectionChanged (holder : Holder)
  | acquireBelongsToAnother (holder : Holder)
  -- `acquire_batch_contains_attempt`
  | batchHasNoTokens
  | batchMisaligned
  | batchBelongsToAnother (requestId : Int)
  -- `finish_attempt_acquire`
  | acquireStageChanged (holder : Holder)
  | acquireDemandVanished (holder : Holder)
  | acquireChangedState (holder : Holder)
  | acquireTokenMoved (holder : Holder)
  | acquireHasAnotherAttempt (holder : Holder)
  | absentAcquireChanged (holder : Holder)
  | acquireBatchExists (holder : Holder)
  | acquireMoved (holder : Holder)
  -- `finish_attempt_acquire_batch`
  | batchProjectionDiffers (holder : Holder)
  | batchNotDurable (holder : Holder)
  | batchCompletionMoved (holder : Holder)
  -- `finish_staged_acquire_as_release`
  | rollbackStageChanged (holder : Holder)
  | acquireHasBatch (holder : Holder)
  | rollbackDemandChanged (holder : Holder)
  | rollbackTokenMoved (holder : Holder)
  | rollbackMoved (holder : Holder)
  -- `set_state` and `set_state_owned`
  | demandNeedsOwner (requestId : Int)
  | demandHasNoRow (requestId : Int)
  | demandTokenEmpty
  | demandOfAnotherAttempt (requestId : Int)
  -- `record_intended`
  | batchMembersMisaligned
  | batchTokenEmpty
  | batchVanished (batchId : String)
  | batchHasAnotherAttempt (batchId : String)
  deriving DecidableEq, Repr

end Velnor.Scaleset
