/-
  The journal's reducer (journal.rs, `reduce`): state and event to new state,
  commands and whether the event was rejected.  It performs no I/O; its only
  outside input is the clock reading.

  Each arm of the source's match that does more than set one field is a
  function of its own here, under the event's name.
-/
import Velnor.Control.Journal.State
import Velnor.Text.Str

namespace Velnor.Control.Journal

open Rows

namespace FleetState

variable (state : FleetState)

/-- `jobs.retain(|item| item.job_id != job_id)`. -/
def dropJob (jobId : JobId) : FleetState :=
  { state with jobs := state.jobs.filter fun item => decide (item.jobId ≠ jobId) }

/-- Only a healthy actor of the row's own generation gets its slot back, and a
    fence stays. -/
def restoreSlot (job : JobRecord) : FleetState × List SideEffect :=
  match state.slot? job.slotId with
  | none => (state, [])
  | some slot =>
    if slot.generation ≠ job.generation then (state, [])
    else if slot.phase = .fenced then (state, [])
    else if slot.readyProof && slot.registered then
      let state := state.setSlot job.slotId fun slot => { slot with phase := .ready }
      (state, [.advertiseCapacity state.advertisedCapacity])
    else if slot.registered then
      (state.setSlot job.slotId fun slot => { slot with phase := .registered }, [])
    else
      (state.setSlot job.slotId fun slot => { slot with phase := .provisioning }, [])

def restoreSlotAfterJobRemoval (jobId : JobId) : FleetState × List SideEffect :=
  match state.job? jobId with
  | none => (state, [])
  | some job => (state.dropJob jobId).restoreSlot job

/-- The slot's own work and the outbox, as the admission arms ask for it. -/
def slotAdmissionBlocked (slotId : SlotId) (generation : Generation) : Bool :=
  state.slotHasActiveJob slotId || state.pendingOutboxBlocksAdmission slotId generation

/-! ## Slot events -/

/-- A permit for a newer generation is a new actor: no proof of the fenced
    predecessor carries over. -/
def reserved (slot : SlotRecord) (generation : Generation) (routing : Bool) : SlotRecord :=
  let slot := if generation > slot.generation then
      { slot with
        executorProven := false, sessionLive := false, registered := false, pid := none,
        heartbeatUnix := 0, phase := .provisioning }
    else slot
  let slot := { slot with generation := generation, permitHeld := true, routingValid := routing }
  if slot.phase = .absent then { slot with phase := .provisioning } else slot

section Reports

variable (slotId : SlotId) (generation : Generation)

def permitReserved : ReduceOutcome :=
  let routing := state.routingValid && state.runnerGroupValid
  let slotBlocked := state.slotAdmissionBlocked slotId generation
  let admissionBlocked := state.fleetAdmissionBlocked
  let slot := state.slotMut slotId
  let state := state.ensureSlot slotId
  if generation < slot.generation ∨ slotBlocked ∨ admissionBlocked
      ∨ (generation = slot.generation ∧ slot.phase = .fenced) then .reject state
  else
    .accept (state.setSlot slotId fun slot => reserved slot generation routing)
      [.spawnSlot slotId generation]

/-- `ExecutorProven`, `SessionLive` and `SlotHeartbeat`: the actor of the
    slot's own generation reports something about itself. -/
def reportSlot (f : SlotRecord → SlotRecord) : ReduceOutcome :=
  let slot := state.slotMut slotId
  let state := state.ensureSlot slotId
  if generation ≠ slot.generation ∨ slot.phase = .fenced then .reject state
  else .accept (state.setSlot slotId f) []

def executorProven : ReduceOutcome :=
  state.reportSlot slotId generation fun slot => { slot with executorProven := true }

def sessionLive : ReduceOutcome :=
  state.reportSlot slotId generation fun slot => { slot with sessionLive := true }

end Reports

def slotHeartbeat (now : UnixTime) (slotId : SlotId) (generation : Generation) (pid : UInt32) :
    ReduceOutcome :=
  state.reportSlot slotId generation fun slot =>
    { slot with pid := some pid, heartbeatUnix := unixSecs now }

section Registration

variable (slotId : SlotId) (generation : Generation)

def registrationIntended : ReduceOutcome :=
  let slotBlocked := state.slotAdmissionBlocked slotId generation
  let fleetBlocked := state.fleetAdmissionBlocked
  let slot := state.slotMut slotId
  let state := state.ensureSlot slotId
  if generation ≠ slot.generation ∨ slot.phase = .fenced ∨ slotBlocked ∨ fleetBlocked
      ∨ !slot.readyProof then .reject state
  else .accept state [.registerRunner slotId generation]

def registered : ReduceOutcome :=
  let slotBlocked := state.slotAdmissionBlocked slotId generation
  let fleetBlocked := state.fleetAdmissionBlocked
  let slot := state.slotMut slotId
  let state := state.ensureSlot slotId
  if generation ≠ slot.generation ∨ slot.phase = .fenced ∨ slotBlocked ∨ fleetBlocked then
    .reject state
  else
    .accept (state.setSlot slotId fun slot =>
      { slot with registered := true, phase := .registered })
      []

/-- The remote runner identity and broker session are gone.  A slot with work
    left is fenced until its normal teardown. -/
def registrationLost : ReduceOutcome :=
  let draining := state.slotAdmissionBlocked slotId generation
  let slot := state.slotMut slotId
  let state := state.ensureSlot slotId
  if generation ≠ slot.generation ∨ slot.phase = .fenced ∨ !slot.registered then .reject state
  else if draining then
    .accept
      (state.setSlot slotId fun slot =>
        { slot with
          registered := false, permitHeld := false, sessionLive := false, phase := .fenced })
      [.fenceSlot slotId generation]
  else
    .accept
      (state.setSlot slotId fun slot =>
        { slot with
          registered := false, permitHeld := false, sessionLive := false, phase := .provisioning })
      []

def readyAttempt : ReduceOutcome :=
  let slotBlocked := state.slotAdmissionBlocked slotId generation
  let fleetBlocked := state.fleetAdmissionBlocked
  let slot := state.slotMut slotId
  let state := state.ensureSlot slotId
  if generation ≠ slot.generation ∨ slot.phase = .fenced ∨ slotBlocked ∨ fleetBlocked then
    .reject state
  else if slot.readyProof && slot.registered then
    let state := state.setSlot slotId fun slot => { slot with phase := .ready }
    .accept state [.advertiseCapacity state.advertisedCapacity]
  else .reject state

end Registration

def cleanupIntended (slotId : SlotId) (isolationId : String) (generation : Generation) :
    ReduceOutcome :=
  if (state.slot? slotId).map SlotRecord.generation ≠ some generation then .reject state
  else .accept state [.cleanup isolationId generation]

/-- A stale slot is fenced only while nothing occupies it. -/
def slotStale (slotId : SlotId) (generation : Generation) : ReduceOutcome :=
  let occupied := state.slotHasActiveJob slotId
  let slot := state.slotMut slotId
  let state := state.ensureSlot slotId
  if generation ≠ slot.generation ∨ occupied then .reject state
  else
    .accept (state.setSlot slotId fun slot => { slot with phase := .fenced })
      [.fenceSlot slotId generation]

/-- Unlike `SlotStale`, this revokes the generation of an occupied slot too. -/
def diskPressureTerminalFence (slotId : SlotId) (generation : Generation) : ReduceOutcome :=
  let slot := state.slotMut slotId
  let state := state.ensureSlot slotId
  if generation ≠ slot.generation then .reject state
  else
    .accept (state.setSlot slotId fun slot => { slot with phase := .fenced })
      [.fenceSlot slotId generation]

/-! ## Acquisition events -/

/-- The row written before `acquirejob` is called. -/
def intendedJob (slotId : SlotId) (jobId : JobId) (generation : Generation)
    (runServiceUrl : String) (intendedUnix : UInt64) : JobRecord where
  jobId := jobId
  slotId := slotId
  generation := generation
  attempt := 0
  worker := ""
  phase := .assigned
  acceptedUnix := 0
  terminalConclusion := none
  provisional := true
  planId := ""
  runServiceUrl := runServiceUrl
  probeAttempts := 0
  probeDeadlineUnix := saturatingAdd intendedUnix acquisitionResolutionSeconds

/-- The only transition that moves a slot to `Assigned`. -/
def jobAcquisitionIntended (state : FleetState) (slotId : SlotId) (jobId : JobId)
    (generation : Generation) (runServiceUrl : String) (intendedUnix : UInt64) : ReduceOutcome :=
  let admissionBlocked := state.fleetAdmissionBlocked
  let slot := state.slotMut slotId
  let state := state.ensureSlot slotId
  if generation ≠ slot.generation ∨ slot.phase ≠ .ready ∨ admissionBlocked
      ∨ (state.job? jobId).isSome then .reject state
  else
    let state := state.setSlot slotId fun slot => { slot with phase := .assigned }
    .accept
      { state with
        jobs := state.jobs ++ [intendedJob slotId jobId generation runServiceUrl intendedUnix] } []

/-- The provisional row a resolution, a probe or a loss is about. -/
def isProvisionalRow (jobId : JobId) (generation : Generation) (job : JobRecord) : Bool :=
  decide (job.jobId = jobId) && (decide (job.generation = generation) && job.provisional)

section Resolutions

variable (provisionalJobId acquiredJobId : JobId)

/-- Only a provisional row may be retargeted, and only onto an identity that
    nothing else holds. -/
def retarget (generation : Generation) (f : JobRecord → JobRecord) : ReduceOutcome :=
  let targetTaken := decide (acquiredJobId ≠ provisionalJobId) && (state.job? acquiredJobId).isSome
  match state.jobs.find? (isProvisionalRow provisionalJobId generation) with
  | some _ =>
    if targetTaken then .reject state
    else
      .accept
        { state with
          jobs := modifyFirst (isProvisionalRow provisionalJobId generation)
            (fun job => { f job with jobId := acquiredJobId }) state.jobs } []
  | none => .reject state

def jobAcquisitionResolved (planId : String) (generation : Generation) : ReduceOutcome :=
  state.retarget provisionalJobId acquiredJobId generation fun job => { job with planId := planId }

/-- The later form also refuses a blank plan or endpoint. -/
def jobAcquisitionResolvedAtEndpoint (planId : String) (generation : Generation)
    (runServiceUrl : String) : ReduceOutcome :=
  if Text.trim planId.toList = [] ∨ Text.trim runServiceUrl.toList = [] then .reject state
  else
    state.retarget provisionalJobId acquiredJobId generation fun job =>
      { job with planId := planId, runServiceUrl := runServiceUrl }

end Resolutions

section Losses

variable (jobId : JobId) (generation : Generation)

def acquisitionProbeFailed : ReduceOutcome :=
  match state.jobs.find? (isProvisionalRow jobId generation) with
  | some _ =>
    .accept
      { state with
        jobs := modifyFirst (isProvisionalRow jobId generation)
          (fun job => { job with probeAttempts := saturatingSucc job.probeAttempts }) state.jobs }
      []
  | none => .reject state

/-- Only a provisional row may be dropped this way. -/
def jobAcquisitionLost : ReduceOutcome :=
  if state.jobs.any (isProvisionalRow jobId generation) then
    let (state, commands) := state.restoreSlotAfterJobRemoval jobId
    .accept state commands
  else .reject state

end Losses

/-! ## Job events -/

def pressureTerminalRecoveryWorkerPrefix : String := "velnor-pressure-terminal-recovery:"

/-- `worker.starts_with(PRESSURE_TERMINAL_RECOVERY_WORKER_PREFIX)`. -/
def isRecoveryWorker (worker : String) : Bool :=
  pressureTerminalRecoveryWorkerPrefix.toList.isPrefixOf worker.toList

/-- The row a `200` from the run service proves. -/
def ownedJob (jobId : JobId) (slotId : SlotId) (attempt : UInt32) (generation : Generation)
    (worker : String) (acceptedUnix : UInt64) (acquisition : Option JobRecord) : JobRecord where
  jobId := jobId
  slotId := slotId
  generation := generation
  attempt := attempt
  worker := worker
  phase := .assigned
  acceptedUnix := acceptedUnix
  terminalConclusion := none
  provisional := false
  planId := (acquisition.map JobRecord.planId).getD ""
  runServiceUrl := (acquisition.map JobRecord.runServiceUrl).getD ""
  probeAttempts := 0
  probeDeadlineUnix := 0

/-- A provisional row with a plan, for the hand-off after a terminal fence. -/
def isHandoffRow (jobId : JobId) (slotId : SlotId) (generation : Generation)
    (job : JobRecord) : Bool :=
  decide (job.jobId = jobId) && decide (job.slotId = slotId)
    && decide (job.generation = generation) && job.provisional && decide (job.planId ≠ "")

section Jobs

variable (jobId : JobId)

def jobOwned (slotId : SlotId) (attempt : UInt32) (generation : Generation) (worker : String)
    (acceptedUnix : UInt64) : ReduceOutcome :=
  let slot := state.slot? slotId
  let newerJob := state.jobs.any fun job =>
    decide (job.jobId = jobId) && decide (job.generation > generation)
  let otherLive := state.jobs.any fun job =>
    decide (job.slotId = slotId) && decide (job.jobId ≠ jobId) && job.phase.occupiesSlot
  let terminalHandoffRow := isRecoveryWorker worker
    && state.jobs.any (isHandoffRow jobId slotId generation)
  let slotPhase := slot.map SlotRecord.phase
  let slotPhaseAllowed := decide (slotPhase = some .assigned)
    || (decide (slotPhase = some .fenced) && terminalHandoffRow)
  if newerJob ∨ slot.map SlotRecord.generation ≠ some generation ∨ !slotPhaseAllowed
      ∨ otherLive then .reject state
  else
    let job := ownedJob jobId slotId attempt generation worker acceptedUnix (state.job? jobId)
    .accept { state.dropJob jobId with jobs := (state.dropJob jobId).jobs ++ [job] } []

/-- The generation of the slot a job row stands for. -/
def jobSlotGeneration : Option Generation :=
  (state.job? jobId).bind fun job => (state.slot? job.slotId).map SlotRecord.generation

def jobStarted (generation : Generation) : ReduceOutcome :=
  match state.job? jobId with
  | some job =>
    if job.generation ≠ generation ∨ state.jobSlotGeneration jobId ≠ some generation then
      .reject state
    else .accept (state.setJob jobId fun job => { job with phase := .running }) []
  | none => .reject state

/-- A terminal result is written once: a second, different conclusion for the
    same job generation is refused. -/
def jobTerminalResult (generation : Generation) (conclusion : String) : ReduceOutcome :=
  match state.job? jobId with
  | some job =>
    if job.generation = generation ∧ state.jobSlotGeneration jobId = some generation
        ∧ job.phase.occupiesSlot
        ∧ (job.terminalConclusion.all fun recorded => decide (recorded = conclusion)) then
      .accept
        (state.setJob jobId fun job =>
          { job with terminalConclusion := some conclusion, phase := .completing }) []
    else .reject state
  | none => .reject state

/-- A completing job may still have a payload to send; its slot is kept until
    the remote acknowledgement. -/
def jobWorkerLost (generation : Generation) : ReduceOutcome :=
  match state.job? jobId with
  | some job =>
    if job.generation = generation ∧ state.jobSlotGeneration jobId = some generation then
      let pendingOutbox := state.outbox.any fun row =>
        decide (row.jobId = jobId) && decide (row.generation = generation) && row.isPending
      if pendingOutbox then .accept state []
      else
        let (state, commands) := state.restoreSlotAfterJobRemoval jobId
        .accept state commands
    else .reject state
  | none => .reject state

end Jobs

/-! ## Completion events -/

/-- The durable prepare record of a completion. -/
def intendedRow (jobId : JobId) (slotId : SlotId) (generation : Generation)
    (payloadSha256 : String) (created : UInt64) : OutboxRecord where
  jobId := jobId
  slotId := slotId
  generation := generation
  payloadSha256 := payloadSha256
  intended := true
  sendStarted := false
  remoteAcked := false
  createdUnix := created
  attempts := 0
  deadlineUnix := saturatingAdd created completionResolutionSeconds
  permanent := false
  abandoned := false

/-- Repeating the same prepare keeps the row: replacing it would clear
    `send_started`. -/
def completionIntended (now : UnixTime) (jobId : JobId) (generation : Generation)
    (payloadSha256 : String) : ReduceOutcome :=
  match state.job? jobId with
  | some job =>
    if job.provisional ∨ job.generation ≠ generation
        ∨ (state.slot? job.slotId).map SlotRecord.generation ≠ some generation then .reject state
    else
      match state.row? jobId with
      | some row =>
        if row.generation ≠ generation ∨ !row.isPending ∨ row.payloadSha256 ≠ payloadSha256
            ∨ !state.outboxOwnerIsProven row then .reject state
        else .accept (state.setJob jobId fun job => { job with phase := .completing }) []
      | none =>
        let state := state.setJob jobId fun job => { job with phase := .completing }
        .accept
          { state with
            outbox := state.outbox
              ++ [intendedRow jobId job.slotId generation payloadSha256 (unixSecs now)] }
          [.sendCompletion jobId generation payloadSha256]
  | none => .reject state

/-- What every event about a prepared completion asks of its row. -/
def rowIsLive (generation : Generation) (row : OutboxRecord) : Bool :=
  decide (row.generation = generation) && row.isPending && state.outboxOwnerIsProven row

section Completions

variable (jobId : JobId) (generation : Generation)

/-- The send claim; it is never released. -/
def completionSendStarted : ReduceOutcome :=
  match state.row? jobId with
  | some row =>
    if state.rowIsLive generation row && !row.sendStarted then
      .accept (state.setRow jobId fun row => { row with sendStarted := true }) []
    else .reject state
  | none => .reject state

/-- Closing a completion: the row is final, its job row goes and the slot is
    restored. -/
def closeCompletion (f : OutboxRecord → OutboxRecord) : ReduceOutcome :=
  let (state, commands) := (state.setRow jobId f).restoreSlotAfterJobRemoval jobId
  .accept state (.deleteOutbox jobId generation :: commands)

/-- `RemoteAcked` and `RemoteObservedTerminal` share one arm. -/
def remoteAcked : ReduceOutcome :=
  let jobSlotGeneration := (state.job? jobId).bind fun job =>
    (state.slot? job.slotId).map fun slot => (job.generation, slot.generation)
  match state.row? jobId with
  | some row =>
    if state.rowIsLive generation row && row.sendStarted
        && decide (jobSlotGeneration = some (generation, generation)) then
      state.closeCompletion jobId generation fun row => { row with remoteAcked := true }
    else .reject state
  | none => .reject state

def completionAttemptFailed (permanent : Bool) : ReduceOutcome :=
  match state.row? jobId with
  | some row =>
    if state.rowIsLive generation row && row.sendStarted then
      .accept
        (state.setRow jobId fun row =>
          { row with
            attempts := saturatingSucc row.attempts, permanent := row.permanent || permanent }) []
    else .reject state
  | none => .reject state

end Completions

/-- A local abandonment: the budget has to be spent in durable state. -/
def completionUnresolvable (now : UnixTime) (jobId : JobId) (generation : Generation) :
    ReduceOutcome :=
  match state.row? jobId with
  | some row =>
    if state.rowIsLive generation row && row.budgetExhausted (unixSecs now) then
      state.closeCompletion jobId generation fun row => { row with abandoned := true }
    else .reject state
  | none => .reject state

/-- The payload recorded by the intent is missing or damaged on local disk. -/
def completionPayloadLost (jobId : JobId) (generation : Generation) (payloadSha256 : String) :
    ReduceOutcome :=
  match state.row? jobId with
  | some row =>
    if state.rowIsLive generation row && decide (row.payloadSha256 = payloadSha256)
        && (state.jobs.any fun job =>
          decide (job.jobId = jobId) && decide (job.slotId = row.slotId)
            && decide (job.generation = generation) && !job.provisional
            && decide (job.phase = .completing)) then
      state.closeCompletion jobId generation fun row => { row with abandoned := true }
    else .reject state
  | none => .reject state

/-! ## Package events -/

/-- An old generation is retired only when no job or outbox row is left. -/
def packageRetireIntended (generation : UInt64) : ReduceOutcome :=
  if generation ≠ state.packageGeneration ∨ state.jobs ≠ []
      ∨ state.outbox.any OutboxRecord.isPending then .reject state
  else .accept { state with packageGeneration := 0, packageAptVersion := "" } []

end FleetState

/-- Pure `State + Event -> New State + Commands`. -/
def reduce (now : UnixTime) (state : FleetState) : Event → ReduceOutcome
  | .controlLive => .accept { state with controlLive := true } []
  | .journalWritable => .accept { state with journalWritable := true } []
  | .dependency githubReachable => .accept { state with githubReachable := githubReachable } []
  | .routing valid groupValid =>
    .accept
      { state with
        routingValid := valid
        runnerGroupValid := groupValid
        slots := state.slots.map fun slot => { slot with routingValid := valid && groupValid } } []
  | .desiredCapacity ready =>
    .accept { state with desiredReady := ready, capacityDeclared := true } []
  | .permitReserved slotId generation => state.permitReserved slotId generation
  | .executorProven slotId generation => state.executorProven slotId generation
  | .sessionLive slotId generation => state.sessionLive slotId generation
  | .registrationIntended slotId generation => state.registrationIntended slotId generation
  | .registered slotId generation => state.registered slotId generation
  | .registrationLost slotId generation => state.registrationLost slotId generation
  | .readyAttempt slotId generation => state.readyAttempt slotId generation
  | .jobAcquisitionIntended slotId jobId generation _ runServiceUrl intendedUnix =>
    state.jobAcquisitionIntended slotId jobId generation runServiceUrl intendedUnix
  | .jobAcquisitionResolved provisionalJobId acquiredJobId planId generation =>
    state.jobAcquisitionResolved provisionalJobId acquiredJobId planId generation
  | .jobAcquisitionResolvedAtEndpoint provisionalJobId acquiredJobId planId generation
      runServiceUrl =>
      state.jobAcquisitionResolvedAtEndpoint provisionalJobId acquiredJobId planId generation
        runServiceUrl
  | .acquisitionProbeFailed jobId generation => state.acquisitionProbeFailed jobId generation
  | .jobAcquisitionLost jobId generation _ => state.jobAcquisitionLost jobId generation
  | .jobOwned jobId slotId attempt generation worker acceptedUnix =>
    state.jobOwned jobId slotId attempt generation worker acceptedUnix
  | .jobStarted jobId generation => state.jobStarted jobId generation
  | .jobTerminalResult jobId generation conclusion =>
    state.jobTerminalResult jobId generation conclusion
  | .completionIntended jobId generation payloadSha256 =>
    state.completionIntended now jobId generation payloadSha256
  | .completionSendStarted jobId generation => state.completionSendStarted jobId generation
  | .remoteAcked jobId generation => state.remoteAcked jobId generation
  | .remoteObservedTerminal jobId generation => state.remoteAcked jobId generation
  | .completionAttemptFailed jobId generation permanent =>
    state.completionAttemptFailed jobId generation permanent
  | .completionUnresolvable jobId generation _ => state.completionUnresolvable now jobId generation
  | .completionPayloadLost jobId generation payloadSha256 _ =>
    state.completionPayloadLost jobId generation payloadSha256
  | .jobWorkerLost jobId generation => state.jobWorkerLost jobId generation
  | .cleanupIntended slotId isolationId generation =>
    state.cleanupIntended slotId isolationId generation
  | .slotHeartbeat slotId generation pid => state.slotHeartbeat now slotId generation pid
  | .slotStale slotId generation => state.slotStale slotId generation
  | .diskPressureTerminalFence slotId generation =>
    state.diskPressureTerminalFence slotId generation
  | .canaryObserved status => .accept { state with canary := status } []
  | .packageActivated aptVersion generation =>
    .accept { state with packageGeneration := generation, packageAptVersion := aptVersion } []
  | .packageRetireIntended generation => state.packageRetireIntended generation

end Velnor.Control.Journal
