/-
  What the two databases hold about one request, and the places a staged
  acquire can stand in.

  A holder names one request, so every call for a request changes one footprint
  (`OnlyAt`), and an invariant of the host is a condition on each footprint by
  itself: a pending stage is `Recoverable`, a request without one is `Settled`.
-/
import Velnor.Scaleset.AcquireStage
import Velnor.Scaleset.Daemon

namespace Velnor.Scaleset

open Relational StateDb
open Velnor.Control (Holder Token PermitLedger PermitRow PermitState PermitLane UnixTime Queued
  u32OfI64)

/-! ## Requests -/

/-- One job request of one scale set. -/
structure Request where
  scaleSetId : Int
  requestId : Int
  deriving DecidableEq, Repr

def Request.holder (q : Request) : Holder := permitHolder q.scaleSetId q.requestId

variable {q : Request} {host : Host} {stage : StagedAttemptAcquire} {fp : Footprint}
  {daemon : Daemon} {requests : List Request}

theorem Request.holder_ne {q' : Request} (h : q' ≠ q) : q'.holder ≠ q.holder := by
  intro heq
  obtain ⟨_, _⟩ := permitHolder_inj heq
  apply h
  cases q
  cases q'
  simp_all

def StagedAttemptAcquire.request (stage : StagedAttemptAcquire) : Request :=
  ⟨stage.scaleSetId, stage.requestId⟩

theorem StagedAttemptAcquire.holder_request (stage : StagedAttemptAcquire) :
    stage.request.holder = stage.holder := stage.holder_eq.symm

/-! ## Footprints -/

/-- Everything the two databases hold about one request. -/
structure Footprint where
  permit : Option PermitRow
  queued : Option Queued
  demand : Option Demand
  stage : Option StagedAttemptAcquire
  release : Option ReleaseRow
  releaseBatch : Option ReleaseBatchRow
  batch : Option AcquireBatch
  worker : Option WorkerRow
  intent : Option ProvisionIntent

def Host.footprint (host : Host) (q : Request) : Footprint where
  permit := host.ledger.permits.get? q.holder
  queued := host.ledger.queued q.holder
  demand := host.db.demandOf q.scaleSetId q.requestId
  stage := host.db.acquires.get? q.holder
  release := host.db.releases.get? q.holder
  releaseBatch := host.db.releaseBatches.get? q.holder
  batch := host.db.batchOf q.scaleSetId q.requestId
  worker := host.db.workerByRequest q.requestId
  intent := host.db.intentByRequest q.scaleSetId q.requestId

/-- A stage is pending for the request it names. -/
theorem request_of_stage (h : (host.footprint q).stage = some stage) : stage.request = q := by
  have hholder : stage.holder = q.holder := Table.key_of_get? h
  by_contra hne
  apply Request.holder_ne hne
  rw [stage.holder_request, hholder]

theorem stage_of_mem (h : stage ∈ host.db.acquires.rows) :
    (host.footprint stage.request).stage = some stage := by
  have hget := Table.get?_of_mem h
  rwa [← stage.holder_request] at hget

theorem mem_of_stage (h : (host.footprint q).stage = some stage) : stage ∈ host.db.acquires.rows :=
  Table.mem_of_get? h

/-! ### Changing one footprint -/

/-- The two hosts differ at most in what they hold about `q`. -/
def OnlyAt (q : Request) (host host' : Host) : Prop :=
  ∀ q', q' ≠ q → host'.footprint q' = host.footprint q'

theorem OnlyAt.trans {a b c : Host} (h : OnlyAt q a b) (h' : OnlyAt q b c) :
    OnlyAt q a c := fun q' hq => (h' q' hq).trans (h q' hq)

/-- The same, table by table; only the tables a call wrote need a proof. -/
structure WritesAt (q : Request) (host host' : Host) : Prop where
  permit : ∀ k, k ≠ q.holder → host'.ledger.permits.get? k = host.ledger.permits.get? k := by
    intros; rfl
  queued : ∀ k, k ≠ q.holder → host'.ledger.queued k = host.ledger.queued k := by
    intros; rfl
  demand : ∀ q', q' ≠ q → host'.db.demandOf q'.scaleSetId q'.requestId
      = host.db.demandOf q'.scaleSetId q'.requestId := by
    intros; rfl
  stage : ∀ k, k ≠ q.holder → host'.db.acquires.get? k = host.db.acquires.get? k := by
    intros; rfl
  release : ∀ k, k ≠ q.holder → host'.db.releases.get? k = host.db.releases.get? k := by
    intros; rfl
  releaseBatch : ∀ k, k ≠ q.holder →
      host'.db.releaseBatches.get? k = host.db.releaseBatches.get? k := by
    intros; rfl
  batches : host'.db.batches = host.db.batches := by rfl
  workers : host'.db.workers = host.db.workers := by rfl
  intents : host'.db.intents = host.db.intents := by rfl

theorem WritesAt.onlyAt {host' : Host} (h : WritesAt q host host') : OnlyAt q host host' := by
  intro q' hq
  have hne := Request.holder_ne hq
  simp only [Host.footprint, batchOf, workerByRequest, intentByRequest,
    h.permit _ hne, h.queued _ hne, h.demand q' hq, h.stage _ hne, h.release _ hne,
    h.releaseBatch _ hne, h.batches, h.workers, h.intents]

/-- A request id belongs to one set, so rewriting its row is seen by that set
    alone. -/
theorem demandOf_ne {db db' : StateDb} {q' : Request} {d d' : Demand} (hq : q' ≠ q)
    (hd : db.demandOf q.scaleSetId q.requestId = some d)
    (hd' : db'.demandOf q.scaleSetId q.requestId = some d')
    (h : ∀ k, k ≠ q.requestId → db'.demands.get? k = db.demands.get? k) :
    db'.demandOf q'.scaleSetId q'.requestId = db.demandOf q'.scaleSetId q'.requestId := by
  by_cases hreq : q'.requestId = q.requestId
  · obtain ⟨hget, hset⟩ := demandOf_eq_some_iff.mp hd
    obtain ⟨hget', hset'⟩ := demandOf_eq_some_iff.mp hd'
    -- the row is of the other set, before and after
    have hother : q.scaleSetId ≠ q'.scaleSetId := by
      intro _
      apply hq
      cases q
      cases q'
      simp_all
    have hnone : ∀ row : Demand, row.scaleSetId = q.scaleSetId →
        (some row).filter (fun row => decide (row.scaleSetId = q'.scaleSetId)) = none := by
      intro _ hrow
      simp [Option.filter, hrow, hother]
    rw [demandOf, demandOf, hreq, hget, hget', hnone d hset, hnone d' hset']
  · rw [demandOf, demandOf, h _ hreq]

/-! ## Where an acquire can stand -/

/-- The ledger never inserted the permit. -/
structure Unheld (stage : StagedAttemptAcquire) (fp : Footprint) : Prop where
  permit : fp.permit = none
  batch : fp.batch = none
  token : ∀ d, fp.demand = some d → d.permitAttemptToken = stage.previousAttemptToken

/-- The ledger holds the permit for the staged token, reserved by a process
    that is dead; a batch, if there is one, names the token too. -/
structure Held (daemon : Daemon) (stage : StagedAttemptAcquire) (fp : Footprint) : Prop where
  permit : ∃ row pid, fp.permit = some row ∧ row.lane = .scaleSet ∧ row.state = .reserved
    ∧ row.attemptToken = stage.targetAttemptToken ∧ row.pid.bind u32OfI64 = some pid
    ∧ daemon.Outlives pid
  queued : fp.queued = some ⟨.scaleSet, .granted⟩
  batch : ∀ batch, fp.batch = some batch →
    batch.containsAttempt stage.requestId stage.targetAttemptToken = .ok true

/-- A pending stage that recovery can resolve. -/
structure Recoverable (daemon : Daemon) (stage : StagedAttemptAcquire) (fp : Footprint) : Prop where
  set : stage.scaleSetId = daemon.scaleSetId
  demand : ∃ d, fp.demand = some d ∧ d.state = .granted
    ∧ (d.permitAttemptToken = stage.previousAttemptToken
      ∨ d.permitAttemptToken = some stage.targetAttemptToken)
  worker : fp.worker = none
  intent : fp.intent = none
  bare : daemon.Bare stage.requestId
  release : fp.release = none
  releaseBatch : fp.releaseBatch = none
  place : Unheld stage fp ∨ Held daemon stage fp

/-- No permit, no batch, and the demand is granted or eligible. -/
def Footprint.Free (fp : Footprint) : Prop :=
  fp.permit = none ∧ fp.batch = none
    ∧ ∃ d, fp.demand = some d ∧ (d.state = .granted ∨ d.state = .eligible)

/-- A permit whose token is the demand row's and the recorded batch member's. -/
def Footprint.Kept (fp : Footprint) (requestId : Int) : Prop :=
  ∃ row d batch, fp.permit = some row ∧ fp.demand = some d ∧ fp.batch = some batch
    ∧ d.permitAttemptToken = some row.attemptToken
    ∧ batch.memberToken requestId = some row.attemptToken

/-- One of the two consistent outcomes of an acquire. -/
def Settled (q : Request) (fp : Footprint) : Prop := fp.Free ∨ fp.Kept q.requestId

/-- The two outcomes exclude each other. -/
theorem Footprint.not_kept_of_free {requestId : Int} (h : fp.Free) : ¬ fp.Kept requestId := by
  rintro ⟨_, -, -, hrow, -⟩
  rw [h.1] at hrow
  cases hrow

/-! ## What holds wherever the pass is cut -/

/-- A pending stage is recoverable, and a request of the pass without one is
    settled. -/
structure Sound (daemon : Daemon) (requests : List Request) (q : Request) (fp : Footprint) :
    Prop where
  pending : ∀ stage, fp.stage = some stage → Recoverable daemon stage fp
  settled : fp.stage = none → q ∈ requests → Settled q fp

/-- The host a crash may leave. -/
def CutSafe (daemon : Daemon) (requests : List Request) (host : Host) : Prop :=
  ∀ q, Sound daemon requests q (host.footprint q)

/-- A call for one request has to be judged there alone. -/
theorem CutSafe.move {host' : Host} (h : CutSafe daemon requests host) (honly : OnlyAt q host host')
    (hq : Sound daemon requests q (host'.footprint q)) : CutSafe daemon requests host' := by
  intro q'
  -- the invariant speaks of each footprint alone, and the rest did not move
  by_cases heq : q' = q
  · rw [heq]
    exact hq
  · rw [honly q' heq]
    exact h q'

/-- A request with a recoverable stage is sound. -/
theorem Recoverable.sound (hstage : fp.stage = some stage) (h : Recoverable daemon stage fp) :
    Sound daemon requests q fp where
  pending other hother := by
    cases hstage.symm.trans hother
    exact h
  settled hnone := by
    rw [hstage] at hnone
    cases hnone

/-- A request without a stage is sound once it is settled. -/
theorem Settled.sound (hstage : fp.stage = none) (h : Settled q fp) :
    Sound daemon requests q fp where
  pending stage hsome := by
    rw [hstage] at hsome
    cases hsome
  settled _ _ := h

/-! ## Journal calls on one footprint -/

section Calls

variable {d : Demand}

/-- The footprint shows what the journal calls ask for. -/
theorem pending_of_footprint (hstage : (host.footprint stage.request).stage = some stage)
    (hdemand : (host.footprint stage.request).demand = some d) (hgranted : d.state = .granted) :
    host.db.Pending stage d where
  recorded := by
    rw [← stage.holder_request]
    exact hstage
  demand := hdemand
  granted := hgranted

/-- Removing the stage of a request. -/
theorem footprint_clear (host : Host) {acquires : AcquireTable}
    (hread : ∀ k, acquires.get? k = if k = stage.holder then none else host.db.acquires.get? k) :
    OnlyAt stage.request host { host with db := { host.db with acquires } }
      ∧ Host.footprint { host with db := { host.db with acquires } } stage.request
        = { host.footprint stage.request with stage := none } := by
  constructor
  · refine WritesAt.onlyAt { stage := fun k hk => ?_ }
    rw [stage.holder_request] at hk
    exact (hread k).trans (if_neg hk)
  · have hnone : acquires.get? stage.request.holder = none :=
      (hread _).trans (if_pos stage.holder_request)
    simp only [Host.footprint, hnone]
    rfl

/-- Projecting the token of a stage. -/
theorem footprint_project (host : Host) {demands : DemandTable}
    (hdemand : (host.footprint stage.request).demand = some d)
    (hread : ∀ k, demands.get? k
      = if k = stage.requestId then
          some { d with permitAttemptToken := some stage.targetAttemptToken }
        else host.db.demands.get? k) :
    OnlyAt stage.request host { host with db := { host.db with demands } }
      ∧ Host.footprint { host with db := { host.db with demands } } stage.request
        = { host.footprint stage.request with
          demand := some { d with permitAttemptToken := some stage.targetAttemptToken } } := by
  have hset := (demandOf_eq_some_iff.mp hdemand).2
  have hnew : { host.db with demands }.demandOf stage.scaleSetId stage.requestId
      = some { d with permitAttemptToken := some stage.targetAttemptToken } :=
    demandOf_eq_some_iff.mpr ⟨(hread _).trans (if_pos rfl), hset⟩
  constructor
  · refine WritesAt.onlyAt { demand := fun q' hq => ?_ }
    exact demandOf_ne (q := stage.request) hq hdemand hnew fun k hk => (hread k).trans (if_neg hk)
  · have hnew' : { host.db with demands }.demandOf stage.request.scaleSetId
        stage.request.requestId = _ := hnew
    simp only [Host.footprint, hnew']
    rfl

end Calls

end Velnor.Scaleset
