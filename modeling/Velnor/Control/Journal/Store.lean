/-
  The journal's database (journal.rs): the materialized tables and the event
  log, what a write leaves in them and what a load reads back.

  A signed column holds a `u64` as its two's complement, and a load refuses a
  negative one.  The texts of `meta`, the phases and the flags decode to what
  they were written from, so the tables hold their values; the pressure tables
  have the columns that a write of events asks for.
-/
import Velnor.Control.Journal.Reduce

namespace Velnor.Control.Journal

open Rows

/-! ## Errors -/

inductive StoreError where
  | materializedInvalid (field : String) (value : Int64)
  | capacityInvalid
  | serviceInstanceMismatch
  | launchFenced
  | workerAuthority
  | recoveryFenced
  | serviceInstanceRequired
  | pressureStateInvalid
  /-- A statement of SQLite fails: a second row under one primary key. -/
  | constraint
  deriving DecidableEq, Repr

def StoreError.reason : StoreError → String
  | .materializedInvalid .. => "journal.materialized.invalid"
  | .capacityInvalid => "journal.capacity.invalid"
  | .serviceInstanceMismatch => "journal.service_instance.mismatch"
  | .launchFenced => "journal.disk_pressure.launch.fenced"
  | .workerAuthority => "journal.disk_pressure.worker_authority"
  | .recoveryFenced => "journal.acquisition.recovery.fenced"
  | .serviceInstanceRequired => "journal.disk_pressure.service_instance.required"
  | .pressureStateInvalid => "journal.disk_pressure.state.invalid"
  | .constraint => "store.constraint"

/-! ## Cells -/

/-- `u64::try_from` of a signed column. -/
def i64U64 (value : Int64) (field : String) : Except StoreError UInt64 :=
  if 0 ≤ value then .ok value.toUInt64 else .error (.materializedInvalid field value)

/-! ## Rows -/

/-- A slot as its table holds it: `record` but for the signed columns. -/
structure SlotRow where
  record : SlotRecord
  generation : Int64
  heartbeatUnix : Int64
  deriving DecidableEq, Repr

def SlotRow.slotId (row : SlotRow) : SlotId := row.record.slotId

def SlotRecord.toRow (slot : SlotRecord) : SlotRow :=
  ⟨slot, slot.generation.toInt64, slot.heartbeatUnix.toInt64⟩

def SlotRow.decode (row : SlotRow) : Except StoreError SlotRecord := do
  let generation ← i64U64 row.generation "slot generation"
  let heartbeatUnix ← i64U64 row.heartbeatUnix "slot heartbeat_unix"
  .ok { row.record with generation, heartbeatUnix }

@[inherit_doc SlotRow]
structure JobRow where
  record : JobRecord
  generation : Int64
  acceptedUnix : Int64
  probeDeadlineUnix : Int64
  deriving DecidableEq, Repr

def JobRow.jobId (row : JobRow) : JobId := row.record.jobId

def JobRecord.toRow (job : JobRecord) : JobRow :=
  ⟨job, job.generation.toInt64, job.acceptedUnix.toInt64, job.probeDeadlineUnix.toInt64⟩

def JobRow.decode (row : JobRow) : Except StoreError JobRecord := do
  let generation ← i64U64 row.generation "job generation"
  let acceptedUnix ← i64U64 row.acceptedUnix "job accepted_unix"
  let probeDeadlineUnix ← i64U64 row.probeDeadlineUnix "job probe_deadline_unix"
  .ok { row.record with generation, acceptedUnix, probeDeadlineUnix }

@[inherit_doc SlotRow]
structure OutboxRow where
  record : OutboxRecord
  generation : Int64
  createdUnix : Int64
  deadlineUnix : Int64
  deriving DecidableEq, Repr

def OutboxRow.jobId (row : OutboxRow) : JobId := row.record.jobId

def OutboxRecord.toRow (row : OutboxRecord) : OutboxRow :=
  ⟨row, row.generation.toInt64, row.createdUnix.toInt64, row.deadlineUnix.toInt64⟩

def OutboxRow.decode (row : OutboxRow) : Except StoreError OutboxRecord := do
  let generation ← i64U64 row.generation "outbox generation"
  let createdUnix ← i64U64 row.createdUnix "outbox created_unix"
  let deadlineUnix ← i64U64 row.deadlineUnix "outbox deadline_unix"
  .ok { row.record with generation, createdUnix, deadlineUnix }

/-! ## The database -/

structure Episode where
  serviceInstance : String
  terminal : Bool
  deriving DecidableEq, Repr

structure Launch where
  serviceInstance : String
  slotId : SlotId
  generation : Int64
  launchNonce : String
  active : Bool
  deriving DecidableEq, Repr

structure Database where
  events : List Event
  slots : List SlotRow
  jobs : List JobRow
  outbox : List OutboxRow
  /-- The fields that `meta` holds; the tables of this state are empty. -/
  metadata : FleetState
  episodes : List Episode
  launches : List Launch
  /-- The `journal_identity` row. -/
  identity : Option String
  /-- The primary keys of the three row tables. -/
  slots_keyed : Distinct SlotRow.slotId slots
  jobs_keyed : Distinct JobRow.jobId jobs
  outbox_keyed : Distinct OutboxRow.jobId outbox
  deriving DecidableEq

/-- A journal file just created for this owner. -/
def Database.fresh (identity : Option String) : Database where
  events := []
  slots := []
  jobs := []
  outbox := []
  metadata := FleetState.fresh
  episodes := []
  launches := []
  identity := identity
  slots_keyed := distinct_nil
  jobs_keyed := distinct_nil
  outbox_keyed := distinct_nil

/-- Every slot row counts, whatever its phase or permit. -/
def FleetState.stateCapacityInvalid (state : FleetState) : Bool :=
  state.capacityDeclared && decide (state.slots.length > state.desiredReady.toNat)

def loadMaterializedState (db : Database) : Except StoreError FleetState := do
  let slots ← db.slots.mapM SlotRow.decode
  let jobs ← db.jobs.mapM JobRow.decode
  let outbox ← db.outbox.mapM OutboxRow.decode
  let state := { db.metadata with journalWritable := true, slots, jobs, outbox }
  .ok { state with capacityInvalid := state.capacityInvalid || state.stateCapacityInvalid }

/-- What `persist_state` writes to `meta`: a marker that is not latched has no
    row. -/
def FleetState.metaRows (state : FleetState) : FleetState :=
  { state with
    slots := []
    jobs := []
    outbox := []
    drainVersion := if state.drainActive then state.drainVersion else 0
    admissionVersion := if state.admissionBlocked then state.admissionVersion else 0 }

/-- `persist_state` writes no acknowledged or abandoned row back: the same job
    id may be delivered again. -/
def OutboxRecord.kept (row : OutboxRecord) : Bool := !(row.remoteAcked || row.abandoned)

/-- No insert of `persist_state` meets a row of the same primary key. -/
structure FleetState.Insertable (state : FleetState) : Prop where
  slots : Distinct SlotRow.slotId (state.slots.map SlotRecord.toRow)
  jobs : Distinct JobRow.jobId (state.jobs.map JobRecord.toRow)
  outbox : Distinct OutboxRow.jobId ((state.outbox.filter OutboxRecord.kept).map OutboxRecord.toRow)

instance (state : FleetState) : Decidable state.Insertable :=
  decidable_of_iff
    (((state.slots.map SlotRecord.toRow).map SlotRow.slotId).Nodup
      ∧ ((state.jobs.map JobRecord.toRow).map JobRow.jobId).Nodup
      ∧ (((state.outbox.filter OutboxRecord.kept).map OutboxRecord.toRow).map
        OutboxRow.jobId).Nodup)
    ⟨fun h => ⟨h.1, h.2.1, h.2.2⟩, fun h => ⟨h.slots, h.jobs, h.outbox⟩⟩

/-- The materialized tables are written anew. -/
def persistState (db : Database) (state : FleetState) : Except StoreError Database :=
  if h : state.Insertable then
    .ok
      { db with
        slots := state.slots.map SlotRecord.toRow
        jobs := state.jobs.map JobRecord.toRow
        outbox := (state.outbox.filter OutboxRecord.kept).map OutboxRecord.toRow
        metadata := state.metaRows
        slots_keyed := h.slots
        jobs_keyed := h.jobs
        outbox_keyed := h.outbox }
  else .error .constraint

/-! ## Handles -/

structure WorkerLaunchFence where
  serviceInstance : String
  slotId : SlotId
  generation : Int64
  launchNonce : String
  deriving DecidableEq, Repr

/-- An open journal without its connection. -/
structure Handle where
  workerLaunch : Option WorkerLaunchFence
  serviceInstance : Option String
  deriving DecidableEq, Repr

namespace Handle

/-- The service a handle writes for. -/
def service (handle : Handle) : Option String :=
  (handle.workerLaunch.map WorkerLaunchFence.serviceInstance).or handle.serviceInstance

/-- `JournalWriterContext::validate`. -/
def validate (handle : Handle) (db : Database) : Except StoreError Unit :=
  if db.identity = handle.service then .ok () else .error .serviceInstanceMismatch

end Handle

/-- `disk_pressure_launch_is_current`. -/
def Database.launchIsCurrent (db : Database) (fence : WorkerLaunchFence) : Except StoreError Bool :=
  let launch := db.launches.find? fun launch =>
    decide (launch.serviceInstance = fence.serviceInstance) && decide (launch.slotId = fence.slotId)
  let leaseMatches := launch.any fun launch =>
    decide (launch.generation = fence.generation)
      && decide (launch.launchNonce = fence.launchNonce) && launch.active
  if !leaseMatches then .ok false
  else if fence.generation < 0 then .error .pressureStateInvalid
  else do
    let state ← loadMaterializedState db
    .ok (!state.capacityInvalid && state.slots.any fun slot =>
      decide (slot.slotId = fence.slotId)
        && decide (slot.generation = fence.generation.toUInt64)
        && decide (slot.phase ≠ .fenced))

/-- A worker-bound handle writes only under its own launch lease. -/
def Handle.checkLaunch (handle : Handle) (db : Database) : Except StoreError Unit :=
  match handle.workerLaunch with
  | none => .ok ()
  | some fence => do
    let current ← db.launchIsCurrent fence
    if current then .ok () else .error .launchFenced

/-- An unbound handle has no safe service identity: any episode holds it up. -/
def Database.pressureActive (db : Database) : Option String → Bool
  | some service => db.episodes.any fun episode => decide (episode.serviceInstance = service)
  | none => !db.episodes.isEmpty

/-! ## apply_many -/

/-- What the loop of `apply_many` carries. -/
structure Batch where
  state : FleetState
  outcomes : List ReduceOutcome
  pending : List Event
  /-- Launch leases to revoke, by slot and generation. -/
  deactivations : List (SlotId × Int64)

def stampEvent (now : UnixTime) : Event → Event
  | .jobOwned jobId slotId attempt generation worker acceptedUnix =>
    .jobOwned jobId slotId attempt generation worker
      (if acceptedUnix = 0 then unixSecs now else acceptedUnix)
  | event => event

/-- What an active pressure episode holds up. -/
def Event.admits : Event → Bool
  | .permitReserved .. | .jobAcquisitionIntended .. => true
  | _ => false

/-- The launch lease an accepted event revokes. -/
def Event.revokes : Event → Option (SlotId × Generation)
  | .slotStale slotId generation | .diskPressureTerminalFence slotId generation =>
    some (slotId, generation)
  | _ => none

def Event.isTerminalFence : Event → Bool
  | .diskPressureTerminalFence .. => true
  | _ => false

def Event.isRecovery : Event → Bool
  | .jobOwned _ _ _ _ worker _ => FleetState.isRecoveryWorker worker
  | _ => false

def diskPressureSqlInteger (value : UInt64) : Except StoreError Int64 :=
  if 0 ≤ value.toInt64 then .ok value.toInt64 else .error .pressureStateInvalid

/-- The outcome of one event of a batch. -/
def outcomeOf (pressure : Bool) (now : UnixTime) (state : FleetState) (event : Event) :
    ReduceOutcome :=
  if pressure && event.admits then .reject state else reduce now state event

/-- An accepted event that changed nothing and released no command is not
    logged. -/
def Batch.accept (batch : Batch) (event : Event) (outcome : ReduceOutcome)
    (deactivations : List (SlotId × Int64)) : Batch where
  state := outcome.state
  outcomes := batch.outcomes ++ [outcome]
  pending :=
    if outcome.commands = [] ∧ outcome.state = batch.state then batch.pending
    else batch.pending ++ [event]
  deactivations := batch.deactivations ++ deactivations

/-- One turn of the loop. -/
def applyEvent (handle : Handle) (pressure : Bool) (batch : Batch) (entry : UnixTime × Event) :
    Except StoreError Batch :=
  if handle.workerLaunch.isSome && entry.2.isTerminalFence then .error .workerAuthority
  else if entry.2.isRecovery then .error .recoveryFenced
  else
    let event := stampEvent entry.1 entry.2
    let outcome := outcomeOf pressure entry.1 batch.state event
    if outcome.rejected then .ok { batch with outcomes := batch.outcomes ++ [outcome] }
    else
      match event.revokes with
      | none => .ok (batch.accept event outcome [])
      | some (slotId, generation) => do
        let generation ← diskPressureSqlInteger generation
        .ok (batch.accept event outcome [(slotId, generation)])

/-- Revoke one launch lease; a handle without a service may not revoke a live
    one. -/
def deactivate (service : Option String) (launches : List Launch) (slot : SlotId × Int64) :
    Except StoreError (List Launch) :=
  match service with
  | some service =>
    .ok (launches.map fun launch =>
      if launch.serviceInstance = service ∧ launch.slotId = slot.1 ∧ launch.generation = slot.2
      then { launch with active := false } else launch)
  | none =>
    if launches.any fun launch =>
      decide (launch.slotId = slot.1) && decide (launch.generation = slot.2) && launch.active
    then .error .serviceInstanceRequired
    else .ok launches

/-- The writes after the loop. -/
def commitBatch (handle : Handle) (db : Database) (batch : Batch) :
    Except StoreError (List ReduceOutcome × Database) := do
  let launches ← batch.deactivations.foldlM (deactivate handle.service) db.launches
  if batch.pending = [] then .ok (batch.outcomes, { db with launches })
  else do
    let db ← persistState { db with launches, events := db.events ++ batch.pending } batch.state
    .ok (batch.outcomes, db)

/-- `Journal::apply_many`: each event with the clock reading it meets. -/
def applyMany (handle : Handle) (db : Database) (events : List (UnixTime × Event)) :
    Except StoreError (List ReduceOutcome × Database) :=
  if events = [] then .ok ([], db)
  else do
    handle.validate db
    handle.checkLaunch db
    let state ← loadMaterializedState db
    if state.capacityInvalid then .error .capacityInvalid
    else do
      let batch ← events.foldlM (applyEvent handle (db.pressureActive handle.service))
        ⟨state, [], [], []⟩
      commitBatch handle db batch

end Velnor.Control.Journal
