/-
  The fleet state of a node's journal (journal.rs): slots, jobs and the
  completion outbox, the events that move it and the commands they release.

  The three tables are vectors, as in the source; no type keeps their ids
  apart.  `u64` and `u32` fields are machine words, since the tables store
  them in signed columns.  A reading of the wall clock is an argument.
-/
import Velnor.Collections.Rows
import Velnor.Control.PermitLedger.Schema

namespace Velnor.Control.Journal

open Rows

/-! ## Machine words -/

/-- A clock reading as a `u64` field holds it. -/
def unixSecs (now : UnixTime) : UInt64 := UInt64.ofNat now.secs

/-- `u64::saturating_add`. -/
def saturatingAdd (a b : UInt64) : UInt64 :=
  if a.toNat + b.toNat < 2 ^ 64 then a + b else UInt64.ofNat (2 ^ 64 - 1)

/-- `u32::saturating_add(1)`. -/
def saturatingSucc (a : UInt32) : UInt32 :=
  if a.toNat + 1 < 2 ^ 32 then a + 1 else a

/-! ## Identities and phases -/

/-- Compare-and-swap generation of one slot actor. -/
abbrev Generation := UInt64

/-- `Generation::INITIAL`. -/
def initialGeneration : Generation := 1

abbrev SlotId := String

abbrev JobId := String

inductive SlotPhase2 where
  | absent
  | provisioning
  | registered
  | ready
  | assigned
  | fenced
  deriving DecidableEq, Repr

def SlotPhase2.countsAsReady : SlotPhase2 → Bool
  | .ready => true
  | _ => false

inductive JobPhase2 where
  | assigned
  | running
  | completing
  deriving DecidableEq, Repr

/-- Always true: the enumeration has no variant that does not occupy. -/
def JobPhase2.occupiesSlot : JobPhase2 → Bool
  | .assigned | .running | .completing => true

@[simp] theorem JobPhase2.occupiesSlot_eq (phase : JobPhase2) : phase.occupiesSlot = true := by
  cases phase <;> rfl

inductive CanaryStatus where
  | passing
  | failing
  | timeout
  | unknown
  deriving DecidableEq, Repr

/-! ## Records -/

structure SlotRecord where
  slotId : SlotId
  generation : Generation
  phase : SlotPhase2
  permitHeld : Bool
  routingValid : Bool
  sessionLive : Bool
  executorProven : Bool
  registered : Bool
  pid : Option UInt32
  heartbeatUnix : UInt64
  deriving DecidableEq, Repr

/-- `SlotRecord::new`. -/
def SlotRecord.new (slotId : SlotId) : SlotRecord where
  slotId := slotId
  generation := initialGeneration
  phase := .absent
  permitHeld := false
  routingValid := false
  sessionLive := false
  executorProven := false
  registered := false
  pid := none
  heartbeatUnix := 0

/-- `ready_proof().is_ok()`: no precondition of `Ready` is missing. -/
def SlotRecord.readyProof (slot : SlotRecord) : Bool :=
  slot.permitHeld && slot.routingValid && slot.sessionLive && slot.executorProven

structure JobRecord where
  jobId : JobId
  slotId : SlotId
  generation : Generation
  attempt : UInt32
  worker : String
  phase : JobPhase2
  acceptedUnix : UInt64
  terminalConclusion : Option String
  provisional : Bool
  planId : String
  runServiceUrl : String
  probeAttempts : UInt32
  probeDeadlineUnix : UInt64
  deriving DecidableEq, Repr

def maxAcquisitionProbes : UInt32 := 8

def acquisitionResolutionSeconds : UInt64 := 6 * 60 * 60

/-- Whether the recovery budget for a provisional row is spent. -/
def JobRecord.probeBudgetExhausted (job : JobRecord) (now : UInt64) : Bool :=
  job.probeAttempts ≥ maxAcquisitionProbes
    || (job.probeDeadlineUnix > 0 && now ≥ job.probeDeadlineUnix)

structure OutboxRecord where
  jobId : JobId
  slotId : SlotId
  generation : Generation
  payloadSha256 : String
  intended : Bool
  sendStarted : Bool
  remoteAcked : Bool
  createdUnix : UInt64
  attempts : UInt32
  deadlineUnix : UInt64
  permanent : Bool
  abandoned : Bool
  deriving DecidableEq, Repr

def maxCompletionAttempts : UInt32 := 8

def completionResolutionSeconds : UInt64 := 6 * 60 * 60

/-- A row still owed to the remote service. -/
def OutboxRecord.isPending (row : OutboxRecord) : Bool :=
  row.intended && !row.remoteAcked && !row.abandoned

/-- Whether the recovery budget for this row is spent. -/
def OutboxRecord.budgetExhausted (row : OutboxRecord) (now : UInt64) : Bool :=
  row.permanent || row.attempts ≥ maxCompletionAttempts
    || (row.deadlineUnix > 0 && now ≥ row.deadlineUnix)

/-! ## The fleet -/

structure FleetState where
  controlLive : Bool
  journalWritable : Bool
  githubReachable : Bool
  routingValid : Bool
  runnerGroupValid : Bool
  drainActive : Bool
  drainVersion : UInt64
  admissionBlocked : Bool
  admissionVersion : UInt64
  desiredReady : UInt32
  canary : CanaryStatus
  packageGeneration : UInt64
  packageAptVersion : String
  capacityDeclared : Bool
  capacityInvalid : Bool
  slots : List SlotRecord
  jobs : List JobRecord
  outbox : List OutboxRecord
  deriving DecidableEq, Repr

/-- `FleetState::default` with `journal_writable` set: what an opened journal
    starts from. -/
def FleetState.fresh : FleetState where
  controlLive := false
  journalWritable := true
  githubReachable := false
  routingValid := false
  runnerGroupValid := false
  drainActive := false
  drainVersion := 0
  admissionBlocked := false
  admissionVersion := 0
  desiredReady := 0
  canary := .unknown
  packageGeneration := 0
  packageAptVersion := ""
  capacityDeclared := false
  capacityInvalid := false
  slots := []
  jobs := []
  outbox := []

namespace FleetState

variable (state : FleetState)

/-- `slots.iter().find(..)` by slot id. -/
def slot? : SlotId → Option SlotRecord := lookup SlotRecord.slotId state.slots

/-- `jobs.iter().find(..)` by job id. -/
def job? : JobId → Option JobRecord := lookup JobRecord.jobId state.jobs

/-- `outbox.iter().find(..)` by job id. -/
def row? : JobId → Option OutboxRecord := lookup OutboxRecord.jobId state.outbox

/-- The first half of `slot_mut`: an unknown slot is added. -/
def ensureSlot (slotId : SlotId) : FleetState :=
  match state.slot? slotId with
  | some _ => state
  | none => { state with slots := state.slots ++ [SlotRecord.new slotId] }

/-- The record `slot_mut` refers to. -/
def slotMut (slotId : SlotId) : SlotRecord := (state.slot? slotId).getD (SlotRecord.new slotId)

/-- Assignments through the reference of `slot_mut`. -/
def setSlot (slotId : SlotId) (f : SlotRecord → SlotRecord) : FleetState :=
  { state with slots := modifyFirst (fun slot => decide (slot.slotId = slotId)) f state.slots }

/-- Assignments to the first job row with this id. -/
def setJob (jobId : JobId) (f : JobRecord → JobRecord) : FleetState :=
  { state with jobs := modifyFirst (fun job => decide (job.jobId = jobId)) f state.jobs }

/-- Assignments to the first outbox row with this job id. -/
def setRow (jobId : JobId) (f : OutboxRecord → OutboxRecord) : FleetState :=
  { state with outbox := modifyFirst (fun row => decide (row.jobId = jobId)) f state.outbox }

def advertisedCapacity : UInt32 :=
  if state.capacityInvalid || state.admissionBlocked || state.drainActive then 0
  else UInt32.ofNat (state.slots.countP fun slot => slot.permitHeld && slot.phase.countsAsReady)

def fleetAdmissionBlocked : Bool := state.admissionBlocked || state.drainActive

/-- A provisional row records an intent to acquire; it proves no ownership. -/
def outboxOwnerIsProven (row : OutboxRecord) : Bool :=
  (state.slots.any fun slot =>
      decide (slot.slotId = row.slotId) && decide (slot.generation = row.generation))
    && state.jobs.any fun job =>
      decide (job.jobId = row.jobId) && decide (job.slotId = row.slotId)
        && decide (job.generation = row.generation) && !job.provisional

/-- A pending row holds up its own slot identity; one whose owner is not
    proven holds up every slot. -/
def pendingOutboxBlocksAdmission (slotId : SlotId) (generation : Generation) : Bool :=
  state.outbox.any fun row =>
    row.isPending
      && ((decide (row.slotId = slotId) && decide (row.generation = generation))
        || !state.outboxOwnerIsProven row)

def slotHasActiveJob (slotId : SlotId) : Bool :=
  state.jobs.any fun job => decide (job.slotId = slotId) && job.phase.occupiesSlot

end FleetState

/-! ## Events and commands -/

/-- Intent events. -/
inductive Event where
  | controlLive
  | journalWritable
  | dependency (githubReachable : Bool)
  | routing (valid groupValid : Bool)
  | desiredCapacity (ready : UInt32)
  | permitReserved (slotId : SlotId) (generation : Generation)
  | executorProven (slotId : SlotId) (generation : Generation)
  | sessionLive (slotId : SlotId) (generation : Generation)
  | registrationIntended (slotId : SlotId) (generation : Generation)
  | registered (slotId : SlotId) (generation : Generation)
  | registrationLost (slotId : SlotId) (generation : Generation)
  | readyAttempt (slotId : SlotId) (generation : Generation)
  | jobAcquisitionIntended (slotId : SlotId) (jobId : JobId) (generation : Generation)
      (messageId runServiceUrl : String) (intendedUnix : UInt64)
  | jobAcquisitionResolved (provisionalJobId acquiredJobId : JobId) (planId : String)
      (generation : Generation)
  | jobAcquisitionResolvedAtEndpoint (provisionalJobId acquiredJobId : JobId) (planId : String)
      (generation : Generation) (runServiceUrl : String)
  | acquisitionProbeFailed (jobId : JobId) (generation : Generation)
  | jobAcquisitionLost (jobId : JobId) (generation : Generation) (reason : String)
  | jobOwned (jobId : JobId) (slotId : SlotId) (attempt : UInt32) (generation : Generation)
      (worker : String) (acceptedUnix : UInt64)
  | jobStarted (jobId : JobId) (generation : Generation)
  | jobTerminalResult (jobId : JobId) (generation : Generation) (conclusion : String)
  | completionIntended (jobId : JobId) (generation : Generation) (payloadSha256 : String)
  | completionSendStarted (jobId : JobId) (generation : Generation)
  | remoteAcked (jobId : JobId) (generation : Generation)
  | remoteObservedTerminal (jobId : JobId) (generation : Generation)
  | completionAttemptFailed (jobId : JobId) (generation : Generation) (permanent : Bool)
  | completionUnresolvable (jobId : JobId) (generation : Generation) (reason : String)
  | completionPayloadLost (jobId : JobId) (generation : Generation) (payloadSha256 : String)
      (reason : String)
  | jobWorkerLost (jobId : JobId) (generation : Generation)
  | cleanupIntended (slotId : SlotId) (isolationId : String) (generation : Generation)
  | slotHeartbeat (slotId : SlotId) (generation : Generation) (pid : UInt32)
  | slotStale (slotId : SlotId) (generation : Generation)
  | diskPressureTerminalFence (slotId : SlotId) (generation : Generation)
  | canaryObserved (status : CanaryStatus)
  | packageActivated (aptVersion : String) (generation : UInt64)
  | packageRetireIntended (generation : UInt64)
  deriving DecidableEq, Repr

/-- Effects the I/O layer may run only after the matching intent is durable. -/
inductive SideEffect where
  | registerRunner (slotId : SlotId) (generation : Generation)
  | advertiseCapacity (permits : UInt32)
  | sendCompletion (jobId : JobId) (generation : Generation) (payloadSha256 : String)
  | cleanup (isolationId : String) (generation : Generation)
  | deleteOutbox (jobId : JobId) (generation : Generation)
  | spawnSlot (slotId : SlotId) (generation : Generation)
  | fenceSlot (slotId : SlotId) (generation : Generation)
  deriving DecidableEq, Repr

structure ReduceOutcome where
  state : FleetState
  commands : List SideEffect
  rejected : Bool
  deriving DecidableEq, Repr

/-- An outcome that was not rejected. -/
def ReduceOutcome.accept (state : FleetState) (commands : List SideEffect) : ReduceOutcome :=
  ⟨state, commands, false⟩

/-- A rejection.  `slot_mut` may have added a slot before it. -/
def ReduceOutcome.reject (state : FleetState) : ReduceOutcome := ⟨state, [], true⟩

end Velnor.Control.Journal
