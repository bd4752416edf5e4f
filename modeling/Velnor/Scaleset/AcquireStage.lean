/-
  The state-database half of a permit acquire (scaleset/demand.rs and
  scaleset/intents.rs): the token is journaled before the permit database can
  insert its row, projected onto the demand row once it has, and the journal
  row is kept until an acquire batch records the same token.

  A stage is resolved in one of three ways: the insert never happened
  (`finishAttemptAcquire` with `false`), a batch took over
  (`finishAttemptAcquireBatch`), or it is turned into a staged release
  (`finishStagedAcquireAsRelease`).
-/
import Velnor.Scaleset.StateDb

namespace Velnor.Scaleset

open Relational StagedAttemptAcquire
open Velnor.Control (Holder Token i64OfU64)

/-! ## Staging -/

/-- The row a valid request for a staged acquire asks for. -/
def stagedAcquire? (holder : Holder) (scaleSetId requestId : Int)
    (previousAttemptToken : Option Token) (targetAttemptToken : Token) :
    Option StagedAttemptAcquire :=
  if h : holder = permitHolder scaleSetId requestId ∧ targetAttemptToken ≠ ""
      ∧ previousAttemptToken ≠ some targetAttemptToken then
    some {
      holder, scaleSetId, requestId, previousAttemptToken, targetAttemptToken
      holder_eq := h.1
      target_nonempty := h.2.1 }
  else none

namespace StateDb

/-- A replay must name the identical attempt. -/
def putAcquire (db : StateDb) (stage : StagedAttemptAcquire) : Except StoreError AcquireTable :=
  match db.acquires.get? stage.holder with
  | some existing =>
    if existing ≠ stage then .error (.acquireBelongsToAnother stage.holder)
    else .ok db.acquires
  | none => orRefuse (db.acquires.insert? stage) .storage

/-- The transaction of `stage_attempt_acquire`. -/
def stageAttemptAcquireTx (stage : StagedAttemptAcquire) (db : StateDb) :
    Except StoreError (StagedAttemptAcquire × StateDb) := do
  -- one journaled transition for a holder at a time
  refuseIf ((db.releases.get? stage.holder).isSome ∨ (db.releaseBatches.get? stage.holder).isSome)
    (.releasePending stage.holder)
  refuseIf (stage.holder ∈ db.rotations) (.rotationPending stage.holder)
  let demand ← orRefuse (db.demandOf stage.scaleSetId stage.requestId)
    (.acquireDemandMissing stage.holder)
  refuseIf (demand.state ≠ .granted ∨ demand.permitAttemptToken ≠ stage.previousAttemptToken)
    (.acquireProjectionChanged stage.holder)
  let acquires ← db.putAcquire stage
  return (stage, { db with acquires })

/-- Persist the caller-generated token before the separate permit-ledger
    transaction inserts a fresh Scale Set row. -/
def stageAttemptAcquire (db : StateDb) (holder : Holder) (scaleSetId requestId : Int)
    (previousAttemptToken : Option Token) (targetAttemptToken : Token) :
    Except StoreError StagedAttemptAcquire × StateDb :=
  transact db fun db => do
    let stage ← orRefuse
      (stagedAcquire? holder scaleSetId requestId previousAttemptToken targetAttemptToken)
      (.invalidAcquire holder)
    stageAttemptAcquireTx stage db

/-- `ORDER BY holder`. -/
def pendingAttemptAcquires (db : StateDb) : List StagedAttemptAcquire :=
  db.acquires.rows.insertionSort fun a b => a.holder ≤ b.holder

end StateDb

/-! ## Acquire batches -/

/-- Whether a batch that lists the request records this token for it. -/
def AcquireBatch.containsAttempt (batch : AcquireBatch) (requestId : Int) (attemptToken : Token) :
    Except StoreError Bool :=
  match batch.attemptTokens with
  | none => .error .batchHasNoTokens
  | some tokens =>
    if tokens.length ≠ batch.requestIds.length then .error .batchMisaligned
    -- lists are aligned, so the index of the request finds its token
    else if tokens[batch.requestIds.idxOf requestId]?.join ≠ some attemptToken then
      .error (.batchBelongsToAnother requestId)
    else .ok true

/-- The token a batch records beside the request. -/
def AcquireBatch.memberToken (batch : AcquireBatch) (requestId : Int) : Option Token :=
  batch.attemptTokens.bind fun tokens => tokens[batch.requestIds.idxOf requestId]?.join

/-- The order in which a scan of one set's batches meets them: it goes through
    the index on `(scale_set_id, state)`, so by state and then by insertion. -/
def scanOrder (batches : List AcquireBatch) : List AcquireBatch :=
  [BatchState.intended, .resolved, .uncertain].flatMap fun state =>
    batches.filter fun batch => batch.state = state

theorem mem_scanOrder {batches : List AcquireBatch} {batch : AcquireBatch} :
    batch ∈ scanOrder batches ↔ batch ∈ batches := by
  cases h : batch.state <;> simp [scanOrder, h]

namespace StateDb

variable (db : StateDb)

/-- The first batch of the set that lists the request, in the order of the scan. -/
def batchOf (scaleSetId requestId : Int) : Option AcquireBatch :=
  (scanOrder db.batches.rows).find? fun batch =>
    batch.scaleSetId = scaleSetId ∧ requestId ∈ batch.requestIds

def acquireBatchContainsAttempt (scaleSetId requestId : Int) (attemptToken : Token) :
    Except StoreError Bool :=
  match db.batchOf scaleSetId requestId with
  | none => .ok false
  | some batch => batch.containsAttempt requestId attemptToken

/-- Persist the acquire intent before the network call, idempotent on
    `batch_id`. -/
def recordIntended (batchId : String) (scaleSetId : Int) (requestIds : List Int)
    (holders : List Holder) (attemptTokens : List Token) (generation : Nat) :
    Except StoreError AcquireBatch × StateDb :=
  if requestIds.length ≠ holders.length ∨ requestIds.length ≠ attemptTokens.length then
    (.error .batchMembersMisaligned, db)
  else if attemptTokens.any String.isEmpty then (.error .batchTokenEmpty, db)
  else
    let intent : AcquireBatch := {
      batchId, scaleSetId, requestIds, holders
      attemptTokens := some (attemptTokens.map some)
      state := .intended
      uncertain := false
      generation := i64OfU64 generation }
    -- `INSERT OR IGNORE`
    let db := { db with batches := (db.batches.insert? intent).getD db.batches }
    match db.batches.get? batchId with
    | none => (.error (.batchVanished batchId), db)
    | some batch =>
      if batch.attemptTokens ≠ intent.attemptTokens then
        (.error (.batchHasAnotherAttempt batchId), db)
      else (.ok batch, db)

/-! ## Resolving a stage -/

section

variable (stage : StagedAttemptAcquire)

/-- Write the stage's token onto the demand row, unless it is there already. -/
def projectToken (demand : Demand) (moved : StoreError) : Except StoreError DemandTable :=
  if demand.permitAttemptToken = some stage.targetAttemptToken then .ok db.demands
  else
    orRefuse
      (db.demands.updateOne? stage.requestId
        (fun d => d.scaleSetId = stage.scaleSetId ∧ d.state = .granted
          ∧ d.permitAttemptToken = stage.previousAttemptToken)
        (fun d => { d with permitAttemptToken := some stage.targetAttemptToken })
        fun _ => ⟨rfl, rfl⟩)
      moved

/-- `DELETE ... WHERE holder = ?1 AND target_attempt_token = ?2`. -/
def clearAcquire (moved : StoreError) : Except StoreError AcquireTable :=
  orRefuse (db.acquires.deleteOne? stage.holder
      fun row => row.targetAttemptToken = stage.targetAttemptToken)
    moved

/-- The journal still names this attempt. -/
def checkRecorded (changed : StoreError) : Except StoreError Unit :=
  refuseIf ((db.acquires.get? stage.holder).map
      (fun row => (row.previousAttemptToken, row.targetAttemptToken))
    ≠ some (stage.previousAttemptToken, stage.targetAttemptToken)) changed

def finishAttemptAcquireTx (acquired : Bool) (db : StateDb) :
    Except StoreError (Bool × StateDb) := do
  db.checkRecorded stage (.acquireStageChanged stage.holder)
  let demand ← orRefuse (db.demandOf stage.scaleSetId stage.requestId)
    (.acquireDemandVanished stage.holder)
  refuseIf (demand.state ≠ .granted) (.acquireChangedState stage.holder)
  if acquired then
    refuseIf (demand.permitAttemptToken ≠ some stage.targetAttemptToken
        ∧ demand.permitAttemptToken ≠ stage.previousAttemptToken)
      (.acquireHasAnotherAttempt stage.holder)
    -- the journal row stays until the batch is durable
    let demands ← db.projectToken stage demand (.acquireTokenMoved stage.holder)
    return (true, { db with demands })
  else
    refuseIf (demand.permitAttemptToken ≠ stage.previousAttemptToken)
      (.absentAcquireChanged stage.holder)
    let batched ← db.acquireBatchContainsAttempt stage.scaleSetId stage.requestId
      stage.targetAttemptToken
    refuseIf (batched = true) (.acquireBatchExists stage.holder)
    let acquires ← db.clearAcquire stage (.acquireMoved stage.holder)
    return (true, { db with acquires })

end

/-- Project an acquired token while retaining its journal until the matching
    acquire batch is durable; an absent insert clears the stage. -/
def finishAttemptAcquire (db : StateDb) (stage : StagedAttemptAcquire) (acquired : Bool) :
    Except StoreError Bool × StateDb :=
  transact db (finishAttemptAcquireTx stage acquired)

def finishAttemptAcquireBatchTx (stage : StagedAttemptAcquire) (db : StateDb) :
    Except StoreError (Bool × StateDb) := do
  let granted := (db.demandOf stage.scaleSetId stage.requestId).filter fun d => d.state = .granted
  refuseIf (granted.bind Demand.permitAttemptToken ≠ some stage.targetAttemptToken)
    (.batchProjectionDiffers stage.holder)
  let batched ← db.acquireBatchContainsAttempt stage.scaleSetId stage.requestId
    stage.targetAttemptToken
  refuseIf (batched = false) (.batchNotDurable stage.holder)
  let acquires ← db.clearAcquire stage (.batchCompletionMoved stage.holder)
  return (true, { db with acquires })

/-- Once the batch is durable it becomes the replay boundary for the held
    token: the stage goes. -/
def finishAttemptAcquireBatch (db : StateDb) (stage : StagedAttemptAcquire) :
    Except StoreError Bool × StateDb :=
  transact db (finishAttemptAcquireBatchTx stage)

end StateDb

/-- The release a rolled back acquire is turned into. -/
def StagedAttemptAcquire.toRelease (stage : StagedAttemptAcquire) : ReleaseRow where
  holder := stage.holder
  scaleSetId := stage.scaleSetId
  requestId := stage.requestId
  attemptToken := stage.targetAttemptToken
  ledgerDemandState := .eligible
  nextDemandState := some .eligible
  workerOwnershipId := none
  holder_eq := stage.holder_eq
  token_nonempty := stage.target_nonempty
  ledger_check := rfl
  next_check := rfl

namespace StateDb

def finishStagedAcquireAsReleaseTx (stage : StagedAttemptAcquire) (db : StateDb) :
    Except StoreError (StagedAttemptRelease × StateDb) := do
  db.checkRecorded stage (.rollbackStageChanged stage.holder)
  let batched ← db.acquireBatchContainsAttempt stage.scaleSetId stage.requestId
    stage.targetAttemptToken
  refuseIf (batched = true) (.acquireHasBatch stage.holder)
  let demand ← orRefuse (db.demandOf stage.scaleSetId stage.requestId)
    (.acquireDemandVanished stage.holder)
  refuseIf (demand.state ≠ .granted
      ∨ (demand.permitAttemptToken ≠ stage.previousAttemptToken
        ∧ demand.permitAttemptToken ≠ some stage.targetAttemptToken))
    (.rollbackDemandChanged stage.holder)
  let demands ← db.projectToken stage demand (.rollbackTokenMoved stage.holder)
  let releases ← orRefuse (db.releases.insert? stage.toRelease) .storage
  let acquires ← db.clearAcquire stage (.rollbackMoved stage.holder)
  return (⟨stage.toRelease, none, false⟩, { db with demands, releases, acquires })

/-- Convert an exact staged acquisition with no durable network batch into a
    staged `eligible` release. -/
def finishStagedAcquireAsRelease (db : StateDb) (stage : StagedAttemptAcquire) :
    Except StoreError StagedAttemptRelease × StateDb :=
  transact db (finishStagedAcquireAsReleaseTx stage)

/-! ## What staging leaves -/

section Staging

variable {db db' : StateDb} {stage : StagedAttemptAcquire}

theorem get?_of_putAcquire {acquires : AcquireTable} (h : db.putAcquire stage = .ok acquires)
    (k : Holder) :
    acquires.get? k = if k = stage.holder then some stage else db.acquires.get? k := by
  unfold putAcquire at h
  cases hget : db.acquires.get? stage.holder with
  | none =>
    rw [hget] at h
    exact Table.get?_of_insert? (orRefuse_eq_ok.mp h) k
  | some existing =>
    simp only [hget] at h
    by_cases hsame : existing = stage
    · rw [if_neg (not_not_intro hsame)] at h
      cases h
      split
      · rename_i hk
        rw [hk, hget, hsame]
      · rfl
    · rw [if_pos hsame] at h
      cases h

/-- A stage that was accepted: nothing else of the holder is journaled, and its
    demand row is granted under the previous token. -/
structure AcquireStaged (db : StateDb) (stage : StagedAttemptAcquire) (db' : StateDb) : Prop where
  noRelease : db.releases.get? stage.holder = none
  noReleaseBatch : db.releaseBatches.get? stage.holder = none
  demand : ∃ d, db.demandOf stage.scaleSetId stage.requestId = some d ∧ d.state = .granted
    ∧ d.permitAttemptToken = stage.previousAttemptToken
  rest : db' = { db with acquires := db'.acquires }
  acquire : ∀ k, db'.acquires.get? k = if k = stage.holder then some stage else db.acquires.get? k

theorem stageAttemptAcquireTx_ok {staged : StagedAttemptAcquire}
    (h : stageAttemptAcquireTx stage db = .ok (staged, db')) :
    staged = stage ∧ db.AcquireStaged stage db' := by
  simp only [stageAttemptAcquireTx, bind_eq_ok, refuseIf_eq_ok, orRefuse_eq_ok] at h
  obtain ⟨-, hrelease, -, -, d, hd, -, hprojection, _, hput, heq⟩ := h
  cases heq
  simp only [not_or, Option.not_isSome_iff_eq_none, Decidable.not_not] at hrelease hprojection
  exact ⟨rfl, hrelease.1, hrelease.2, ⟨d, hd, hprojection⟩, rfl, get?_of_putAcquire hput⟩

theorem stageAttemptAcquire_ok {holder : Holder} {scaleSetId requestId : Int}
    {previous : Option Token} {target : Token}
    (h : db.stageAttemptAcquire holder scaleSetId requestId previous target = (.ok stage, db')) :
    stage.scaleSetId = scaleSetId ∧ stage.requestId = requestId
      ∧ stage.targetAttemptToken = target ∧ db.AcquireStaged stage db' := by
  have hbody := transact_eq_ok.mp h
  simp only [bind_eq_ok] at hbody
  obtain ⟨_, hasked, htx⟩ := hbody
  obtain ⟨rfl, hstaged⟩ := stageAttemptAcquireTx_ok htx
  unfold stagedAcquire? at hasked
  split at hasked
  · cases hasked
    exact ⟨rfl, rfl, rfl, hstaged⟩
  · cases hasked

end Staging

/-! ## What a batch says about a request -/

section Batches

variable {db : StateDb} {scaleSetId requestId : Int} {token : Token}

theorem containsAttempt_eq_ok {batch : AcquireBatch} {answer : Bool}
    (h : batch.containsAttempt requestId token = .ok answer) :
    answer = true ∧ batch.memberToken requestId = some token := by
  unfold AcquireBatch.containsAttempt at h
  cases htokens : batch.attemptTokens with
  | none =>
    rw [htokens] at h
    cases h
  | some =>
    simp only [htokens] at h
    split_ifs at h with hlength htoken
    refine ⟨(Except.ok.inj h).symm, ?_⟩
    rw [AcquireBatch.memberToken, htokens]
    exact not_not.mp htoken

theorem acquireBatchContainsAttempt_none (h : db.batchOf scaleSetId requestId = none) :
    db.acquireBatchContainsAttempt scaleSetId requestId token = .ok false := by
  rw [acquireBatchContainsAttempt, h]

end Batches

/-! ## What recording a batch leaves -/

section Recording

variable {db : StateDb}

/-- The batch `record_intended` inserts for these stages. -/
def intendedBatch (batchId : String) (scaleSetId : Int) (stages : List StagedAttemptAcquire)
    (generation : Nat) : AcquireBatch where
  batchId := batchId
  scaleSetId := scaleSetId
  requestIds := stages.map StagedAttemptAcquire.requestId
  holders := stages.map StagedAttemptAcquire.holder
  attemptTokens := some ((stages.map StagedAttemptAcquire.targetAttemptToken).map some)
  state := .intended
  uncertain := false
  generation := i64OfU64 generation

/-- Recording inserts the batch or, when the id is taken or the request is
    malformed, changes nothing. -/
theorem recordIntended_cases (db : StateDb) (batchId : String) (scaleSetId : Int)
    (stages : List StagedAttemptAcquire) (generation : Nat) :
    let after := (db.recordIntended batchId scaleSetId
      (stages.map requestId) (stages.map holder)
      (stages.map targetAttemptToken) generation).2
    after = db ∨ ∃ batches,
      db.batches.insert? (intendedBatch batchId scaleSetId stages generation) = some batches
        ∧ after = { db with batches } := by
  intro after
  -- whatever it answers, the table is the old one or that of the insert
  have hafter : after = db ∨ after = { db with batches := (db.batches.insert?
      (intendedBatch batchId scaleSetId stages generation)).getD db.batches } := by
    show (recordIntended _ _ _ _ _ _ _).2 = _ ∨ (recordIntended _ _ _ _ _ _ _).2 = _
    unfold recordIntended
    split_ifs
    · exact .inl rfl
    · exact .inl rfl
    · right
      dsimp only
      split
      · rfl
      · split_ifs <;> rfl
  rcases hafter with h | h
  · exact .inl h
  cases hins : db.batches.insert? (intendedBatch batchId scaleSetId stages generation) with
  | none =>
    rw [hins] at h
    exact .inl h
  | some batches =>
    rw [hins] at h
    exact .inr ⟨batches, rfl, h⟩

/-- Recording is seen by requests of the batch alone: it is the last of the
    intended ones, and they come first. -/
theorem batchOf_insert {batches : BatchTable} {batch : AcquireBatch}
    (h : db.batches.insert? batch = some batches) (hstate : batch.state = .intended)
    (scaleSetId requestId : Int) :
    { db with batches }.batchOf scaleSetId requestId = db.batchOf scaleSetId requestId
      ∨ (batch.scaleSetId = scaleSetId ∧ requestId ∈ batch.requestIds)
        ∧ { db with batches }.batchOf scaleSetId requestId = some batch := by
  simp only [batchOf, scanOrder, Table.rows_of_insert? h, List.flatMap_cons, List.flatMap_nil,
    List.filter_append, List.filter_singleton, hstate, decide_true, List.append_assoc,
    List.find?_append, decide_false, reduceCtorEq]
  by_cases hlists : batch.scaleSetId = scaleSetId ∧ requestId ∈ batch.requestIds
  · cases (db.batches.rows.filter fun batch => decide (batch.state = .intended)).find?
        fun batch => decide (batch.scaleSetId = scaleSetId ∧ requestId ∈ batch.requestIds) with
    | some => exact .inl rfl
    | none => exact .inr ⟨hlists, by simp [hlists]⟩
  · left
    simp [hlists]

/-- Each stage finds its own token in the batch recorded for all of them. -/
theorem containsAttempt_intendedBatch {batchId : String} {scaleSetId : Int}
    {stages : List StagedAttemptAcquire} {generation : Nat}
    (hdistinct : (stages.map requestId).Nodup)
    {stage : StagedAttemptAcquire} (hmem : stage ∈ stages) :
    (intendedBatch batchId scaleSetId stages generation).containsAttempt stage.requestId
      stage.targetAttemptToken = .ok true := by
  obtain ⟨i, hi, rfl⟩ := List.mem_iff_getElem.mp hmem
  -- request ids are distinct, so the first match is the stage itself
  have hindex : (stages.map requestId).idxOf stages[i].requestId = i := by
    have hlt : i < (stages.map requestId).length := by simpa using hi
    have hget := hdistinct.idxOf_getElem i hlt
    rwa [List.getElem_map] at hget
  simp [AcquireBatch.containsAttempt, intendedBatch, hindex, hi]

end Recording

/-! ## What resolving a stage leaves -/

section Resolving

variable {db : StateDb} {stage : StagedAttemptAcquire} {d : Demand}

/-- The stage is journaled and its demand row `d` is granted. -/
structure Pending (db : StateDb) (stage : StagedAttemptAcquire) (d : Demand) : Prop where
  recorded : db.acquires.get? stage.holder = some stage
  demand : db.demandOf stage.scaleSetId stage.requestId = some d
  granted : d.state = .granted

theorem clearAcquire_ok (h : db.acquires.get? stage.holder = some stage) (moved : StoreError) :
    ∃ acquires, db.clearAcquire stage moved = .ok acquires
      ∧ ∀ k, acquires.get? k = if k = stage.holder then none else db.acquires.get? k := by
  obtain ⟨acquires, hdelete, hread⟩ := Table.deleteOne?_of_get?
    (p := fun row : StagedAttemptAcquire =>
      decide (row.targetAttemptToken = stage.targetAttemptToken)) h (by simp)
  refine ⟨acquires, ?_, hread⟩
  rw [clearAcquire, hdelete, orRefuse_some]

/-- Without a durable batch the stage is not completed as one. -/
theorem batchOf_of_finishAttemptAcquireBatch {answer : Bool} {db' : StateDb}
    (h : db.finishAttemptAcquireBatch stage = (.ok answer, db')) :
    db.batchOf stage.scaleSetId stage.requestId ≠ none := by
  have hbody := transact_eq_ok.mp h
  simp only [finishAttemptAcquireBatchTx, bind_eq_ok, refuseIf_eq_ok] at hbody
  obtain ⟨-, -, _, hlookup, -, hdurable, -⟩ := hbody
  intro hnone
  rw [acquireBatchContainsAttempt_none hnone] at hlookup
  exact hdurable (Except.ok.inj hlookup).symm

variable (h : db.Pending stage d)
include h

theorem checkRecorded_ok (changed : StoreError) : db.checkRecorded stage changed = .ok () := by
  apply refuseIf_pass
  rw [h.recorded]
  exact not_not_intro rfl

/-- An insert that never happened: the stage goes and nothing else changes. -/
theorem finishAttemptAcquire_absent (htoken : d.permitAttemptToken = stage.previousAttemptToken)
    (hbatch : db.batchOf stage.scaleSetId stage.requestId = none) :
    ∃ acquires, db.finishAttemptAcquire stage false = (.ok true, { db with acquires })
      ∧ ∀ k, acquires.get? k = if k = stage.holder then none else db.acquires.get? k := by
  obtain ⟨acquires, hclear, hread⟩ := clearAcquire_ok h.recorded (.acquireMoved stage.holder)
  refine ⟨acquires, transact_of_ok ?_, hread⟩
  simp only [finishAttemptAcquireTx, bind_eq_ok, refuseIf_eq_ok, orRefuse_eq_ok, Bool.false_eq_true,
    if_false]
  exact ⟨(), checkRecorded_ok h _, d, h.demand, (), not_not_intro h.granted, (),
    not_not_intro htoken, false, acquireBatchContainsAttempt_none hbatch, (), Bool.false_ne_true,
    acquires, hclear, rfl⟩

/-- A durable batch: the stage goes and nothing else changes. -/
theorem finishAttemptAcquireBatch_ok
    (htoken : d.permitAttemptToken = some stage.targetAttemptToken)
    (hbatch : db.acquireBatchContainsAttempt stage.scaleSetId stage.requestId
      stage.targetAttemptToken = .ok true) :
    ∃ acquires, db.finishAttemptAcquireBatch stage = (.ok true, { db with acquires })
      ∧ ∀ k, acquires.get? k = if k = stage.holder then none else db.acquires.get? k := by
  obtain ⟨acquires, hclear, hread⟩ := clearAcquire_ok h.recorded
    (.batchCompletionMoved stage.holder)
  refine ⟨acquires, transact_of_ok ?_, hread⟩
  simp only [finishAttemptAcquireBatchTx, bind_eq_ok, refuseIf_eq_ok]
  refine ⟨(), ?_, true, hbatch, (), by simp, acquires, hclear, rfl⟩
  rw [h.demand, Option.filter_some, if_pos (by simp [h.granted]), Option.bind_some, htoken]
  exact not_not_intro rfl

variable
  (htoken : d.permitAttemptToken = stage.previousAttemptToken
    ∨ d.permitAttemptToken = some stage.targetAttemptToken)
include htoken

/-- The demand row carries the stage's token, all others are as before. -/
theorem projectToken_ok (moved : StoreError) :
    ∃ demands, db.projectToken stage d moved = .ok demands
      ∧ ∀ k, demands.get? k
        = if k = stage.requestId then
            some { d with permitAttemptToken := some stage.targetAttemptToken }
          else db.demands.get? k := by
  obtain ⟨hget, hset⟩ := demandOf_eq_some_iff.mp h.demand
  by_cases hdone : d.permitAttemptToken = some stage.targetAttemptToken
  · refine ⟨db.demands, if_pos hdone, fun k => ?_⟩
    split
    · rename_i hk
      rw [hk, hget, ← hdone]
    · rfl
  · have hprevious := htoken.resolve_right hdone
    obtain ⟨demands, hupdate, hread⟩ := Table.updateOne?_of_get?
      (p := fun d : Demand => decide (d.scaleSetId = stage.scaleSetId ∧ d.state = .granted
        ∧ d.permitAttemptToken = stage.previousAttemptToken))
      hget (by simp [hset, h.granted, hprevious])
      (fun d => { d with permitAttemptToken := some stage.targetAttemptToken })
      fun _ => ⟨rfl, rfl⟩
    refine ⟨demands, ?_, hread⟩
    rw [projectToken, if_neg hdone, hupdate, orRefuse_some]

/-- An acquired permit: the token is on the demand row, the stage stays. -/
theorem finishAttemptAcquire_acquired :
    ∃ demands, db.finishAttemptAcquire stage true = (.ok true, { db with demands })
      ∧ ∀ k, demands.get? k
        = if k = stage.requestId then
            some { d with permitAttemptToken := some stage.targetAttemptToken }
          else db.demands.get? k := by
  obtain ⟨demands, hproject, hread⟩ := projectToken_ok h htoken (.acquireTokenMoved stage.holder)
  refine ⟨demands, transact_of_ok ?_, hread⟩
  simp only [finishAttemptAcquireTx, bind_eq_ok, refuseIf_eq_ok, orRefuse_eq_ok, if_true]
  exact ⟨(), checkRecorded_ok h _, d, h.demand, (), not_not_intro h.granted, (),
    fun hnot => htoken.elim hnot.2 hnot.1, demands, hproject, rfl⟩

/-- A rollback: the stage becomes a release stage, and the demand row carries
    the token that release asks for. -/
theorem finishStagedAcquireAsRelease_ok
    (hbatch : db.batchOf stage.scaleSetId stage.requestId = none)
    (hrelease : db.releases.get? stage.holder = none) :
    ∃ demands releases acquires,
      db.finishStagedAcquireAsRelease stage
        = (.ok ⟨stage.toRelease, none, false⟩, { db with demands, releases, acquires })
      ∧ (∀ k, demands.get? k
        = if k = stage.requestId then
            some { d with permitAttemptToken := some stage.targetAttemptToken }
          else db.demands.get? k)
      ∧ (∀ k, releases.get? k
        = if k = stage.holder then some stage.toRelease else db.releases.get? k)
      ∧ ∀ k, acquires.get? k = if k = stage.holder then none else db.acquires.get? k := by
  obtain ⟨demands, hproject, hdemands⟩ :=
    projectToken_ok h htoken (.rollbackTokenMoved stage.holder)
  obtain ⟨releases, hinsert, hreleases⟩ := Table.exists_insert? (r := stage.toRelease) hrelease
    fun _ => ReleaseRow.holder_eq_of_request
  obtain ⟨acquires, hclear, hacquires⟩ := clearAcquire_ok h.recorded (.rollbackMoved stage.holder)
  refine ⟨demands, releases, acquires, transact_of_ok ?_, hdemands, hreleases, hacquires⟩
  simp only [finishStagedAcquireAsReleaseTx, bind_eq_ok, refuseIf_eq_ok, orRefuse_eq_ok]
  refine ⟨(), checkRecorded_ok h _, false, acquireBatchContainsAttempt_none hbatch, (),
    Bool.false_ne_true, d, h.demand, (), ?_, demands, hproject, releases, hinsert, acquires,
    hclear, rfl⟩
  rintro (hstate | ⟨hprevious, htarget⟩)
  · exact hstate h.granted
  · exact htoken.elim hprevious htarget

end Resolving

end StateDb

end Velnor.Scaleset
