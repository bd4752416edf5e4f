/-
  The state-database half of a permit release (scaleset/demand.rs): the
  journal row written before the host permit is deleted, and the transaction
  that applies its projections and removes it again.

  `Releasable` collects what the two transactions check, so that staging
  succeeds from it and hands the finish what it needs.
-/
import Velnor.Scaleset.StateDb

namespace Velnor.Scaleset

open Relational Table
open Velnor.Control (Holder Token i64OfU64)

/-! ## Staging -/

/-- The row a valid request for a staged release asks for. -/
def releaseRow? (holder : Holder) (scaleSetId requestId : Int) (attemptToken : Token)
    (ledgerDemandState : PermitDemandState) (nextDemandState : Option DemandState)
    (workerOwnershipId : Option String) : Option ReleaseRow :=
  if h : holder = permitHolder scaleSetId requestId ∧ attemptToken ≠ ""
      ∧ releasesTo ledgerDemandState = true
      ∧ nextDemandState.all DemandState.releaseTarget = true then
    some {
      holder, scaleSetId, requestId, attemptToken, ledgerDemandState, nextDemandState
      workerOwnershipId
      holder_eq := h.1
      token_nonempty := h.2.1
      ledger_check := h.2.2.1
      next_check := h.2.2.2 }
  else none

namespace StateDb

variable (db : StateDb)

/-- The exact member of a durable acquire batch. -/
def verifyReleaseBatchMember (batchId : String) (scaleSetId requestId : Int) (attemptToken : Token)
    : Except StoreError Unit :=
  match (db.batches.get? batchId).filter fun batch => batch.scaleSetId = scaleSetId with
  | none => .error (.releaseBatchMissing batchId)
  | some batch =>
    match batch.requestIds.findIdx? (· = requestId) with
    | none => .error (.notInReleaseBatch requestId batchId)
    | some index =>
      match batch.attemptTokens with
      | none => .error .releaseBatchHasNoTokens
      | some tokens =>
        refuseIf (tokens.length ≠ batch.requestIds.length ∨ tokens[index]?.join ≠ some attemptToken)
          (.releaseBatchTokenDiffers requestId batchId)

def checkDemandProjection (row : ReleaseRow) : Except StoreError Unit :=
  if row.nextDemandState.isSome then
    refuseIf ((db.demandOf row.scaleSetId row.requestId).bind Demand.permitAttemptToken
        ≠ some row.attemptToken) (.demandHasAnotherToken row.holder)
  else .ok ()

def checkWorkerProjection (row : ReleaseRow) : Except StoreError Unit :=
  match row.workerOwnershipId with
  | none => .ok ()
  | some ownershipId =>
    match db.workerOf ownershipId row.requestId with
    | none => .error (.workerMissing row.holder)
    | some worker =>
      refuseIf (worker.permitAttemptToken ≠ some row.attemptToken
          ∨ worker.workerState.cleanupReady = false) (.workerNotReady row.holder)

def checkReleaseBatch (row : ReleaseRow) (batchId : Option String) : Except StoreError Unit :=
  match batchId with
  | none => .ok ()
  | some batchId =>
    db.verifyReleaseBatchMember batchId row.scaleSetId row.requestId row.attemptToken

/-- A replay must name the identical attempt and projections. -/
def putRelease (row : ReleaseRow) : Except StoreError ReleaseTable :=
  match db.releases.get? row.holder with
  | some existing =>
    if existing ≠ row then .error (.releaseBelongsToAnother row.holder) else .ok db.releases
  | none => orRefuse (db.releases.insert? row) .storage

def putReleaseBatch (holder : Holder) (batchId : Option String) :
    Except StoreError ReleaseBatchTable :=
  match batchId, db.releaseBatches.get? holder with
  | some batchId, some recorded =>
    if recorded.batchId = batchId ∧ recorded.resolveUncertain = false then
      .ok db.releaseBatches
    else .error (.releaseBatchChanged holder)
  | some batchId, none =>
    orRefuse (db.releaseBatches.insert? ⟨holder, batchId, false⟩) .storage
  | none, none => .ok db.releaseBatches
  -- a release staged with a batch is not replayed without it
  | none, some _ => .error (.releaseBatchChanged holder)

/-- The transaction of `stage_attempt_release_inner`. -/
def stageAttemptReleaseTx (row : ReleaseRow) (batchId : Option String) (db : StateDb) :
    Except StoreError (StagedAttemptRelease × StateDb) := do
  refuseIf (db.acquires.get? row.holder).isSome (.acquirePending row.holder)
  refuseIf (row.holder ∈ db.rotations) (.rotationPending row.holder)
  db.checkDemandProjection row
  db.checkWorkerProjection row
  db.checkReleaseBatch row batchId
  let releases ← db.putRelease row
  let releaseBatches ← db.putReleaseBatch row.holder batchId
  return (⟨row, batchId, false⟩, { db with releases, releaseBatches })

/-- Persist the state-DB half of a permit release before the separate host
    permit transaction runs. -/
def stageAttemptReleaseInner (holder : Holder) (scaleSetId requestId : Int) (attemptToken : Token)
    (ledgerDemandState : PermitDemandState) (nextDemandState : Option DemandState)
    (workerOwnershipId batchId : Option String) :
    Except StoreError StagedAttemptRelease × StateDb :=
  match releaseRow? holder scaleSetId requestId attemptToken ledgerDemandState nextDemandState
      workerOwnershipId with
  | none => (.error (.invalidRelease holder), db)
  | some row =>
    -- a batch takes part only in a rollback to the queue
    if workerOwnershipId = some ""
        ∨ (batchId.isSome ∧ ¬ (ledgerDemandState = .eligible
          ∧ nextDemandState = some .eligible ∧ workerOwnershipId = none)) then
      (.error (.invalidRelease holder), db)
    else transact db (stageAttemptReleaseTx row batchId)

/-! ## Reading the journal -/

/-- The `LEFT JOIN` with the batch sidecar. -/
def joinBatch (row : ReleaseRow) : StagedAttemptRelease :=
  match db.releaseBatches.get? row.holder with
  | none => ⟨row, none, false⟩
  | some batch => ⟨row, some batch.batchId, batch.resolveUncertain⟩

def stagedRelease (holder : Holder) : Option StagedAttemptRelease :=
  (db.releases.get? holder).map db.joinBatch

/-- `ORDER BY r.holder`. -/
def pendingAttemptReleases : List StagedAttemptRelease :=
  (db.releases.rows.insertionSort fun a b => a.holder ≤ b.holder).map db.joinBatch

/-! ## Finishing -/

/-- The demand projection of a finished release. -/
def projectDemand (stage : StagedAttemptRelease) (generation : Nat) :
    Except StoreError DemandTable :=
  let row := stage.row
  match row.nextDemandState with
  | none => .ok db.demands
  | some next =>
    match db.demandOf row.scaleSetId row.requestId with
    | none => .error (.demandVanished row.holder)
    | some demand =>
      if demand.permitAttemptToken ≠ some row.attemptToken then
        .error (.demandChangedAttempt row.holder)
      -- applied before, and finished again
      else if demand.state = next then .ok db.demands
      else if demand.state.movesTo next = false then
        .error (.demandCannotMove row.holder demand.state next)
      else
        orRefuse
          (db.demands.updateOne? row.requestId
            (fun d => d.scaleSetId = row.scaleSetId
              ∧ d.permitAttemptToken = some row.attemptToken ∧ d.state = demand.state)
            (fun d => { d with
              state := next, declineReason := none, generation := i64OfU64 generation })
            fun _ => ⟨rfl, rfl⟩)
          (.demandMoved row.holder)

/-- The worker projection of a finished release. -/
def projectWorker (stage : StagedAttemptRelease) (generation : Nat) :
    Except StoreError WorkerTable :=
  let row := stage.row
  match row.workerOwnershipId with
  | none => .ok db.workers
  | some ownershipId =>
    match db.workerOf ownershipId row.requestId with
    | none => .error (.workerVanished row.holder)
    | some worker =>
      if worker.permitAttemptToken ≠ some row.attemptToken
          ∨ worker.workerState.cleanupReady = false then
        .error (.workerChanged row.holder)
      else if worker.workerState = .permitReleased then .ok db.workers
      else
        orRefuse
          (db.workers.updateOne? ownershipId
            (fun w => w.requestId = some row.requestId
              ∧ w.permitAttemptToken = some row.attemptToken
              ∧ w.workerState = .ownedCleanup)
            (fun w => { w with
              workerState := .permitReleased, generation := i64OfU64 generation })
            fun _ => ⟨rfl, rfl⟩)
          (.workerMoved row.holder)

/-- The batch closes only after its final staged member does. -/
def closeReleaseBatch (stage : StagedAttemptRelease) :
    Except StoreError (ReleaseBatchTable × BatchTable) :=
  let row := stage.row
  match stage.batchId with
  | none => .ok (db.releaseBatches, db.batches)
  | some batchId => do
    db.verifyReleaseBatchMember batchId row.scaleSetId row.requestId row.attemptToken
    let releaseBatches ← orRefuse
      (db.releaseBatches.deleteOne? row.holder fun b =>
        b.batchId = batchId ∧ b.resolveUncertain = stage.batchUncertain)
      (.releaseBatchMoved row.holder)
    -- another member is still staged
    if releaseBatches.rows.any fun b => b.batchId = batchId then
      return (releaseBatches, db.batches)
    else
      let batches ← orRefuse
        (db.batches.updateOne? batchId (fun _ => true)
          (fun b => { b with
            state := if stage.batchUncertain then .uncertain else .resolved
            uncertain := stage.batchUncertain })
          fun _ => ⟨rfl, rfl⟩)
        (.releaseBatchVanished batchId)
      return (releaseBatches, batches)

/-- The transaction of `finish_attempt_release`. -/
def finishAttemptReleaseTx (holder : Holder) (generation : Nat) (db : StateDb) :
    Except StoreError (Bool × StateDb) :=
  match db.stagedRelease holder with
  | none => .ok (false, db)
  | some stage => do
    let demands ← db.projectDemand stage generation
    let workers ← db.projectWorker stage generation
    let (releaseBatches, batches) ← db.closeReleaseBatch stage
    let releases ← orRefuse
      (db.releases.deleteOne? stage.row.holder fun r => r.attemptToken = stage.row.attemptToken)
      (.releaseMoved stage.row.holder)
    return (true, { db with demands, workers, releaseBatches, batches, releases })

/-- Apply all state projections and remove one release stage; the caller first
    performs the token-fenced ledger release. -/
def finishAttemptRelease (db : StateDb) (holder : Holder) (generation : Nat) :
    Except StoreError Bool × StateDb :=
  transact db (finishAttemptReleaseTx holder generation)

/-! ## What the two transactions need -/

/-- The projections of the release are there to be applied: the demand row can
    move to the target, the worker row is cleaned up, the batch names the
    attempt. -/
structure Projects (db : StateDb) (row : ReleaseRow) (batchId : Option String) : Prop where
  demand : ∀ next, row.nextDemandState = some next →
    ∃ d, db.demandOf row.scaleSetId row.requestId = some d
      ∧ d.permitAttemptToken = some row.attemptToken
      ∧ (d.state = next ∨ d.state.movesTo next = true)
  worker : ∀ ownershipId, row.workerOwnershipId = some ownershipId →
    ∃ w, db.workerOf ownershipId row.requestId = some w
      ∧ w.permitAttemptToken = some row.attemptToken ∧ w.workerState.cleanupReady = true
  batch : ∀ b, batchId = some b →
    db.verifyReleaseBatchMember b row.scaleSetId row.requestId row.attemptToken = .ok ()

/-- A valid release target: the request is well formed, no other transition of
    the holder is journaled, and the projections can be applied. -/
structure Releasable (db : StateDb) (row : ReleaseRow) (batchId : Option String) : Prop
    extends Projects db row batchId where
  workerNamed : row.workerOwnershipId ≠ some ""
  batchShape : batchId.isSome = true → row.ledgerDemandState = .eligible
    ∧ row.nextDemandState = some .eligible ∧ row.workerOwnershipId = none
  noAcquire : db.acquires.get? row.holder = none
  noRotation : row.holder ∉ db.rotations
  sameStage : ∀ existing, db.releases.get? row.holder = some existing → existing = row
  sameBatch : ∀ existing, db.releaseBatches.get? row.holder = some existing →
    batchId = some existing.batchId ∧ existing.resolveUncertain = false

theorem row_joinBatch (row : ReleaseRow) : (db.joinBatch row).row = row := by
  unfold joinBatch
  split <;> rfl

section Staging

variable {db} {row : ReleaseRow} {batchId : Option String}

theorem checkDemandProjection_ok (h : db.Projects row batchId) :
    db.checkDemandProjection row = .ok () := by
  unfold checkDemandProjection
  split
  · rename_i hsome
    obtain ⟨next, hnext⟩ := Option.isSome_iff_exists.mp hsome
    obtain ⟨_, hd, htoken, -⟩ := h.demand next hnext
    apply refuseIf_pass
    rw [hd, Option.bind_some, htoken]
    exact not_not_intro rfl
  · rfl

theorem checkWorkerProjection_ok (h : db.Projects row batchId) :
    db.checkWorkerProjection row = .ok () := by
  unfold checkWorkerProjection
  cases hid : row.workerOwnershipId with
  | none => rfl
  | some ownershipId =>
    obtain ⟨_, hw, htoken, hready⟩ := h.worker ownershipId hid
    simp only [hw]
    apply refuseIf_pass
    simp [htoken, hready]

theorem checkReleaseBatch_ok (h : db.Projects row batchId) :
    db.checkReleaseBatch row batchId = .ok () := by
  cases hb : batchId with
  | none => rfl
  | some b => exact h.batch b hb

/-- The stage is in the journal, whether it was there or not. -/
theorem putRelease_ok (h : db.Releasable row batchId) :
    ∃ releases, db.putRelease row = .ok releases
      ∧ ∀ k, releases.get? k = if k = row.holder then some row else db.releases.get? k := by
  unfold putRelease
  cases hget : db.releases.get? row.holder with
  | some existing =>
    obtain rfl := h.sameStage existing hget
    refine ⟨db.releases, by simp, fun k => ?_⟩
    split
    · rename_i hk
      rw [hk, hget]
    · rfl
  | none =>
    -- a request is journaled under one holder, so the insert meets no other row
    obtain ⟨releases, hins, hread⟩ := exists_insert? hget fun _ => ReleaseRow.holder_eq_of_request
    exact ⟨releases, by simp [hins], hread⟩

theorem putReleaseBatch_ok (h : db.Releasable row batchId) :
    ∃ releaseBatches, db.putReleaseBatch row.holder batchId = .ok releaseBatches
      ∧ ∀ k, releaseBatches.get? k
        = if k = row.holder then batchId.map fun b => ⟨row.holder, b, false⟩
          else db.releaseBatches.get? k := by
  unfold putReleaseBatch
  cases hget : db.releaseBatches.get? row.holder with
  | some existing =>
    obtain ⟨rfl, huncertain⟩ := h.sameBatch existing hget
    refine ⟨db.releaseBatches, by simp [huncertain], fun k => ?_⟩
    split
    · rename_i hk
      have hkey := key_of_get? hget
      rw [hk, hget, Option.map_some, ← hkey, ← huncertain]
    · rfl
  | none =>
    cases hb : batchId with
    | none =>
      refine ⟨db.releaseBatches, rfl, fun k => ?_⟩
      split
      · rename_i hk
        rw [hk, hget]
        rfl
      · rfl
    | some b =>
      obtain ⟨releaseBatches, hins, hread⟩ := exists_insert?
        (r := (⟨row.holder, b, false⟩ : ReleaseBatchRow)) hget fun _ hkey => hkey
      exact ⟨releaseBatches, by simp [hins], hread⟩

/-- A stage is read from the two rows of its holder. -/
theorem stagedRelease_congr {db' : StateDb} {k : Holder}
    (hrelease : db'.releases.get? k = db.releases.get? k)
    (hsidecar : db'.releaseBatches.get? k = db.releaseBatches.get? k) :
    db'.stagedRelease k = db.stagedRelease k := by
  rw [stagedRelease, stagedRelease, hrelease]
  apply Option.map_congr
  intro row hrow
  have hkey : row.holder = k := key_of_get? hrow
  rw [joinBatch, joinBatch, hkey, hsidecar]

theorem holder_of_stagedRelease {k : Holder} {stage : StagedAttemptRelease}
    (h : db.stagedRelease k = some stage) : stage.row.holder = k := by
  obtain ⟨row, hrow, rfl⟩ := Option.map_eq_some_iff.mp h
  rw [row_joinBatch]
  exact key_of_get? hrow

/-- The database after staging: the two journal rows, and nothing else. -/
structure Staged (db : StateDb) (row : ReleaseRow) (batchId : Option String)
    (db' : StateDb) : Prop where
  rest : db' = { db with releases := db'.releases, releaseBatches := db'.releaseBatches }
  pending : ∀ k, db'.stagedRelease k
    = if k = row.holder then some ⟨row, batchId, false⟩ else db.stagedRelease k

theorem releaseRow?_self (row : ReleaseRow) :
    releaseRow? row.holder row.scaleSetId row.requestId row.attemptToken row.ledgerDemandState
      row.nextDemandState row.workerOwnershipId = some row :=
  dif_pos ⟨row.holder_eq, row.token_nonempty, row.ledger_check, row.next_check⟩

theorem stageAttemptReleaseTx_ok (h : db.Releasable row batchId) :
    ∃ db', stageAttemptReleaseTx row batchId db = .ok (⟨row, batchId, false⟩, db')
      ∧ db.Staged row batchId db' := by
  obtain ⟨releases, hput, hget⟩ := putRelease_ok h
  obtain ⟨releaseBatches, hputBatch, hgetBatch⟩ := putReleaseBatch_ok h
  refine ⟨{ db with releases, releaseBatches }, ?_, rfl, ?_⟩
  · have hnoAcquire : refuseIf ((db.acquires.get? row.holder).isSome = true)
        (StoreError.acquirePending row.holder) = .ok () := by
      apply refuseIf_pass
      simp [h.noAcquire]
    have hnoRotation := refuseIf_pass h.noRotation (StoreError.rotationPending row.holder)
    simp only [stageAttemptReleaseTx, hnoAcquire, hnoRotation,
      checkDemandProjection_ok h.toProjects, checkWorkerProjection_ok h.toProjects,
      checkReleaseBatch_ok h.toProjects, hput, hputBatch, bind, Except.bind, pure, Except.pure]
  · intro k
    split
    · -- reading the two rows back through the join gives the stage
      rename_i hk
      have hrow := (hget k).trans (if_pos hk)
      have hbatch := (hgetBatch row.holder).trans (if_pos rfl)
      simp only [stagedRelease, hrow, Option.map_some, joinBatch, hbatch]
      cases batchId <;> rfl
    · rename_i hk
      exact stagedRelease_congr ((hget k).trans (if_neg hk)) ((hgetBatch k).trans (if_neg hk))

theorem stageAttemptReleaseInner_ok (h : db.Releasable row batchId) :
    ∃ db', db.stageAttemptReleaseInner row.holder row.scaleSetId row.requestId row.attemptToken
        row.ledgerDemandState row.nextDemandState row.workerOwnershipId batchId
        = (.ok ⟨row, batchId, false⟩, db')
      ∧ db.Staged row batchId db' := by
  obtain ⟨db', htx, hstaged⟩ := stageAttemptReleaseTx_ok h
  refine ⟨db', ?_, hstaged⟩
  have hshape : ¬ (row.workerOwnershipId = some ""
      ∨ (batchId.isSome = true ∧ ¬ (row.ledgerDemandState = .eligible
        ∧ row.nextDemandState = some .eligible ∧ row.workerOwnershipId = none))) := by
    rintro (hname | ⟨hsome, hnot⟩)
    · exact h.workerNamed hname
    · exact hnot (h.batchShape hsome)
  simp only [stageAttemptReleaseInner, releaseRow?_self, if_neg hshape, transact_of_ok htx]

end Staging

/-! ## What a finish leaves -/

end StateDb

/-- The demand row of a released request. -/
def ReleaseRow.demandAfter (row : ReleaseRow) (generation : Nat) (demand : Demand) : Demand :=
  match row.nextDemandState with
  | none => demand
  | some next =>
    if demand.state = next then demand
    else { demand with state := next, declineReason := none, generation := i64OfU64 generation }

theorem ReleaseRow.demandAfter_state {row : ReleaseRow} {next : DemandState}
    (h : row.nextDemandState = some next) (generation : Nat) (demand : Demand) :
    (row.demandAfter generation demand).state = next := by
  unfold demandAfter
  rw [h]
  dsimp only
  split <;> first | assumption | rfl

theorem ReleaseRow.demandAfter_scaleSetId (row : ReleaseRow) (generation : Nat) (demand : Demand) :
    (row.demandAfter generation demand).scaleSetId = demand.scaleSetId := by
  unfold demandAfter
  split
  · rfl
  · split <;> rfl

/-- The worker row of a released request. -/
def workerAfter (generation : Nat) (worker : WorkerRow) : WorkerRow :=
  if worker.workerState = .permitReleased then worker
  else { worker with workerState := .permitReleased, generation := i64OfU64 generation }

namespace StateDb

section Finishing

variable {db : StateDb} {stage : StagedAttemptRelease}

/-- The demand row of the request moves to its target, all others stay. -/
theorem projectDemand_ok (h : db.Projects stage.row stage.batchId) (generation : Nat) :
    ∃ demands, db.projectDemand stage generation = .ok demands
      ∧ ∀ k, demands.get? k = if k = stage.row.requestId then
          (db.demands.get? k).map (stage.row.demandAfter generation)
        else db.demands.get? k := by
  cases hnext : stage.row.nextDemandState with
  | none =>
    refine ⟨db.demands, by simp [projectDemand, hnext], fun k => ?_⟩
    have hid : stage.row.demandAfter generation = id := by
      funext d
      simp [ReleaseRow.demandAfter, hnext]
    rw [hid, Option.map_id, id, ite_self]
  | some next =>
    obtain ⟨d, hd, htoken, hmoves⟩ := h.demand next hnext
    obtain ⟨hget, hset⟩ := demandOf_eq_some_iff.mp hd
    by_cases hsame : d.state = next
    · refine ⟨db.demands, by simp [projectDemand, hnext, hd, htoken, hsame], fun k => ?_⟩
      split
      · rename_i hk
        rw [hk, hget, Option.map_some, ReleaseRow.demandAfter, hnext]
        simp [hsame]
      · rfl
    · -- the row is still in the state just read: the update changes exactly it
      have hallowed : d.state.movesTo next = true := hmoves.resolve_left hsame
      have hmatch : (decide (d.scaleSetId = stage.row.scaleSetId
          ∧ d.permitAttemptToken = some stage.row.attemptToken ∧ d.state = d.state)) = true := by
        simp [hset, htoken]
      obtain ⟨demands, hupdate, hread⟩ := updateOne?_of_get?
        (p := fun d' : Demand => decide (d'.scaleSetId = stage.row.scaleSetId
          ∧ d'.permitAttemptToken = some stage.row.attemptToken ∧ d'.state = d.state))
        hget hmatch
        (fun d => { d with
          state := next, declineReason := none, generation := i64OfU64 generation })
        fun _ => ⟨rfl, rfl⟩
      refine ⟨demands, ?_, fun k => ?_⟩
      · simp only [projectDemand, hnext, hd, htoken, ne_eq, not_true_eq_false, if_false,
          if_neg hsame, hallowed, Bool.true_eq_false, hupdate, orRefuse_some]
      · rw [hread]
        split
        · rename_i hk
          rw [hk, hget, Option.map_some, ReleaseRow.demandAfter, hnext]
          simp [hsame]
        · rfl

/-- The named worker row is released, all others stay. -/
theorem projectWorker_ok (h : db.Projects stage.row stage.batchId) (generation : Nat) :
    ∃ workers, db.projectWorker stage generation = .ok workers
      ∧ (stage.row.workerOwnershipId = none → workers = db.workers)
      ∧ ∀ k, workers.get? k = if stage.row.workerOwnershipId = some k then
          (db.workers.get? k).map (workerAfter generation)
        else db.workers.get? k := by
  cases hid : stage.row.workerOwnershipId with
  | none =>
    exact ⟨db.workers, by simp [projectWorker, hid], fun _ => rfl, fun k => by simp⟩
  | some ownershipId =>
    obtain ⟨w, hw, htoken, hready⟩ := h.worker ownershipId hid
    obtain ⟨hget, hreq⟩ := workerOf_eq_some_iff.mp hw
    by_cases hdone : w.workerState = .permitReleased
    · refine ⟨db.workers, ?_, fun _ => rfl, fun k => ?_⟩
      · simp only [projectWorker, hid, hw, htoken, hready, ne_eq, not_true_eq_false,
          Bool.true_eq_false, or_self, if_false, if_pos hdone]
      · split
        · rename_i hk
          rw [← Option.some.inj hk, hget, Option.map_some, workerAfter, if_pos hdone]
        · rfl
    · -- cleanup-ready and not released yet
      have hcleanup : w.workerState = .ownedCleanup := by
        cases hs : w.workerState <;> simp_all [ScaleSetWorkerState.cleanupReady]
      have hmatch : (decide (w.requestId = some stage.row.requestId
          ∧ w.permitAttemptToken = some stage.row.attemptToken
          ∧ w.workerState = .ownedCleanup)) = true := by
        simp [hreq, htoken, hcleanup]
      obtain ⟨workers, hupdate, hread⟩ := updateOne?_of_get?
        (p := fun w : WorkerRow => decide (w.requestId = some stage.row.requestId
          ∧ w.permitAttemptToken = some stage.row.attemptToken
          ∧ w.workerState = .ownedCleanup))
        hget hmatch
        (fun w => { w with
          workerState := .permitReleased, generation := i64OfU64 generation })
        fun _ => ⟨rfl, rfl⟩
      refine ⟨workers, ?_, by rintro ⟨⟩, fun k => ?_⟩
      · simp only [projectWorker, hid, hw, htoken, hready, ne_eq, not_true_eq_false,
          Bool.true_eq_false, or_self, if_false, if_neg hdone, hupdate, orRefuse_some]
      · rw [hread]
        by_cases hk : k = ownershipId
        · rw [hk, if_pos rfl, if_pos rfl, hget, Option.map_some, workerAfter, if_neg hdone]
        · rw [if_neg hk, if_neg fun heq => hk (Option.some.inj heq).symm]

theorem verifyReleaseBatchMember_ok {batchId : String} {scaleSetId requestId : Int} {token : Token}
    (h : db.verifyReleaseBatchMember batchId scaleSetId requestId token = .ok ()) :
    ∃ batch, db.batches.get? batchId = some batch := by
  unfold verifyReleaseBatchMember at h
  cases hget : db.batches.get? batchId with
  | some batch => exact ⟨batch, rfl⟩
  | none =>
    simp only [hget] at h
    cases h

/-- What the member check reads of a batch. -/
def membersOf (batch : AcquireBatch) : Int × List Int × Option (List (Option Token)) :=
  (batch.scaleSetId, batch.requestIds, batch.attemptTokens)

/-- Closing a batch leaves its members alone, and so every check on them. -/
theorem verifyReleaseBatchMember_congr {db' : StateDb} {batchId : String}
    (h : (db'.batches.get? batchId).map membersOf = (db.batches.get? batchId).map membersOf)
    (scaleSetId requestId : Int) (token : Token) :
    db'.verifyReleaseBatchMember batchId scaleSetId requestId token
      = db.verifyReleaseBatchMember batchId scaleSetId requestId token := by
  unfold verifyReleaseBatchMember
  cases hget : db.batches.get? batchId with
  | none =>
    rw [hget, Option.map_none, Option.map_eq_none_iff] at h
    rw [h]
  | some batch =>
    rw [hget, Option.map_some, Option.map_eq_some_iff] at h
    obtain ⟨batch', hget', hmembers⟩ := h
    obtain ⟨hset, hids, htokens⟩ : batch'.scaleSetId = batch.scaleSetId
        ∧ batch'.requestIds = batch.requestIds ∧ batch'.attemptTokens = batch.attemptTokens := by
      simpa [membersOf] using hmembers
    by_cases hof : batch.scaleSetId = scaleSetId
    · simp only [hget', Option.filter_some, hset, hof, decide_true, if_true, hids, htokens]
    · simp only [hget', Option.filter_some, hset, hof, decide_false, Bool.false_eq_true, if_false]

/-- The projections read one demand row, one worker row and the batch's members. -/
theorem Projects.congr {db' : StateDb} {row : ReleaseRow} {batchId : Option String}
    (h : db.Projects row batchId)
    (hdemand : db'.demands.get? row.requestId = db.demands.get? row.requestId)
    (hworker : ∀ k, row.workerOwnershipId = some k → db'.workers.get? k = db.workers.get? k)
    (hmembers : ∀ k, (db'.batches.get? k).map membersOf = (db.batches.get? k).map membersOf) :
    db'.Projects row batchId where
  demand := by
    unfold demandOf
    rw [hdemand]
    exact h.demand
  worker := fun k hk => by
    unfold workerOf
    rw [hworker k hk]
    exact h.worker k hk
  batch := fun b hb => by
    rw [verifyReleaseBatchMember_congr (hmembers b)]
    exact h.batch b hb

/-- The sidecar row of the holder is gone; without one nothing was there. -/
theorem closeReleaseBatch_ok (hpending : db.stagedRelease stage.row.holder = some stage)
    (h : db.Projects stage.row stage.batchId) :
    ∃ closed, db.closeReleaseBatch stage = .ok closed
      ∧ (∀ k, closed.1.get? k = if k = stage.row.holder then none else db.releaseBatches.get? k)
      ∧ (stage.batchId = none → closed.2 = db.batches)
      ∧ ∀ k, (closed.2.get? k).map membersOf = (db.batches.get? k).map membersOf := by
  obtain ⟨row, hrow, hjoin⟩ := Option.map_eq_some_iff.mp hpending
  unfold joinBatch at hjoin
  have hkey := key_of_get? hrow
  -- the stage was read through the join, so its batch is the sidecar row
  rw [hkey] at hjoin
  cases hside : db.releaseBatches.get? stage.row.holder with
  | none =>
    rw [hside] at hjoin
    have hnone : stage.batchId = none := by rw [← hjoin]
    refine ⟨(db.releaseBatches, db.batches), by simp [closeReleaseBatch, hnone],
      fun k => ?_, fun _ => rfl, fun _ => rfl⟩
    split
    · rename_i hk
      rw [hk, hside]
    · rfl
  | some side =>
    rw [hside] at hjoin
    have hbatch : stage.batchId = some side.batchId := by rw [← hjoin]
    have huncertain : stage.batchUncertain = side.resolveUncertain := by rw [← hjoin]
    have hmember := h.batch side.batchId hbatch
    obtain ⟨_, hbatchRow⟩ := verifyReleaseBatchMember_ok hmember
    obtain ⟨_, hdelete, hread⟩ := deleteOne?_of_get?
      (p := fun b : ReleaseBatchRow => decide (b.batchId = side.batchId
        ∧ b.resolveUncertain = stage.batchUncertain))
      hside (by simp [huncertain])
    obtain ⟨batches, hupdate, hbatches⟩ := updateOne?_of_get? (p := fun _ => true) hbatchRow rfl
      (fun b => { b with
        state := if stage.batchUncertain then .uncertain else .resolved
        uncertain := stage.batchUncertain })
      fun _ => ⟨rfl, rfl⟩
    simp only [closeReleaseBatch, hbatch, hmember, hdelete, hupdate, orRefuse_some, bind,
      Except.bind]
    have hmembers : ∀ k, (batches.get? k).map membersOf = (db.batches.get? k).map membersOf := by
      intro k
      rw [hbatches]
      split
      · rename_i hk
        rw [hk, hbatchRow]
        rfl
      · rfl
    split
    · exact ⟨_, rfl, hread, by rintro ⟨⟩, fun _ => rfl⟩
    · exact ⟨_, rfl, hread, by rintro ⟨⟩, hmembers⟩

/-- The database after a finish: every projection applied and the stage gone. -/
structure Finished (db : StateDb) (stage : StagedAttemptRelease) (generation : Nat)
    (db' : StateDb) : Prop where
  rest : db' = { db with
    demands := db'.demands, workers := db'.workers, releaseBatches := db'.releaseBatches
    batches := db'.batches, releases := db'.releases }
  demand : ∀ k, db'.demands.get? k = if k = stage.row.requestId then
      (db.demands.get? k).map (stage.row.demandAfter generation)
    else db.demands.get? k
  workers : stage.row.workerOwnershipId = none → db'.workers = db.workers
  worker : ∀ k, db'.workers.get? k = if stage.row.workerOwnershipId = some k then
      (db.workers.get? k).map (workerAfter generation)
    else db.workers.get? k
  release : ∀ k, db'.releases.get? k = if k = stage.row.holder then none else db.releases.get? k
  releaseBatch : ∀ k, db'.releaseBatches.get? k
    = if k = stage.row.holder then none else db.releaseBatches.get? k
  batches : stage.batchId = none → db'.batches = db.batches
  members : ∀ k, (db'.batches.get? k).map membersOf = (db.batches.get? k).map membersOf

theorem Finished.pending {db' : StateDb} {generation : Nat}
    (h : db.Finished stage generation db') (k : Holder) :
    db'.stagedRelease k = if k = stage.row.holder then none else db.stagedRelease k := by
  split
  · rename_i hk
    rw [stagedRelease, (h.release k).trans (if_pos hk), Option.map_none]
  · rename_i hk
    exact stagedRelease_congr ((h.release k).trans (if_neg hk))
      ((h.releaseBatch k).trans (if_neg hk))

theorem finishAttemptRelease_ok (stage : StagedAttemptRelease)
    (hpending : db.stagedRelease stage.row.holder = some stage)
    (h : db.Projects stage.row stage.batchId) (generation : Nat) :
    ∃ db', db.finishAttemptRelease stage.row.holder generation = (.ok true, db')
      ∧ db.Finished stage generation db' := by
  obtain ⟨demands, hdemands, hdemand⟩ := projectDemand_ok h generation
  obtain ⟨workers, hworkers, hkeptWorkers, hworker⟩ := projectWorker_ok h generation
  obtain ⟨⟨releaseBatches, batches⟩, hclose, hsidecar, hkept, hmembers⟩ :=
    closeReleaseBatch_ok hpending h
  obtain ⟨row, hrow, hjoin⟩ := Option.map_eq_some_iff.mp hpending
  have hsame : stage.row = row := by
    rw [← hjoin, row_joinBatch]
  obtain ⟨releases, hdelete, hread⟩ := deleteOne?_of_get?
    (p := fun r : ReleaseRow => decide (r.attemptToken = stage.row.attemptToken)) hrow
    (by simp [hsame])
  refine ⟨{ db with demands, workers, releaseBatches, batches, releases }, ?_,
    rfl, hdemand, hkeptWorkers, hworker, hread, hsidecar, hkept, hmembers⟩
  apply transact_of_ok
  simp only [finishAttemptReleaseTx, hpending, hdemands, hworkers, hclose, hdelete, orRefuse_some,
    bind, Except.bind, pure, Except.pure]

end Finishing

end StateDb

end Velnor.Scaleset
