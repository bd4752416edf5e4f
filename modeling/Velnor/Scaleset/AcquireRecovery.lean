/-
  `recover_staged_attempt_acquisitions` (scaleset/lane.rs): each stage that a
  crash left pending is resolved by what the permit database says.  No permit
  proves the insert never committed and clears the stage; a permit with an
  exact batch keeps it; a permit without one is turned into a release back to
  `eligible` and released.

  `recoverAll_run` is what a whole run does: it goes through, settles every
  pending request and touches no other.
-/
import Velnor.Scaleset.AcquirePass
import Velnor.Scaleset.ReleaseProtocol

namespace Velnor.Scaleset

open Relational StagedAttemptAcquire StateDb Script List
open Velnor.Control (Holder Token PermitLedger PermitRow UnixTime Queued i64OfU64)

/-! ## The recovery -/

/-- What is proven of a stage before its permit is looked at: its demand row,
    and whether a durable batch records its token. -/
def Daemon.checkStagedAcquire (daemon : Daemon) (stage : StagedAttemptAcquire) (db : StateDb) :
    Except LaneError (Demand × Bool) := do
  refuseIf (stage.scaleSetId ≠ daemon.scaleSetId
      ∨ stage.holder ≠ permitHolder stage.scaleSetId stage.requestId
      ∨ stage.targetAttemptToken = "")
    (.invalidStagedAcquire stage.holder)
  let demand ← orRefuse (db.demands.get? stage.requestId) .stagedAcquireHasNoDemand
  refuseIf (demand.scaleSetId ≠ stage.scaleSetId ∨ demand.state ≠ .granted
      ∨ (demand.permitAttemptToken ≠ stage.previousAttemptToken
        ∧ demand.permitAttemptToken ≠ some stage.targetAttemptToken))
    (.stagedAcquireProjectionChanged stage.holder)
  refuseIf ((db.workerByRequest stage.requestId).isSome
      ∨ (db.intentByRequest stage.scaleSetId stage.requestId).isSome)
    (.stagedAcquireHasWorker stage.holder)
  daemon.verifyRecoveryEvidence db stage.requestId
  let hasBatch ← (db.acquireBatchContainsAttempt stage.scaleSetId stage.requestId
    stage.targetAttemptToken).mapError .store
  return (demand, hasBatch)

variable (stage : StagedAttemptAcquire)

/-- No permit: the ledger insert did not commit. -/
def recoverAbsent (demand : Demand) (hasBatch : Bool) : HostScript Unit := do
  liftM (refuseIf (hasBatch = true) (LaneError.stagedBatchWithoutPermit stage.holder))
  liftM (refuseIf (demand.permitAttemptToken ≠ stage.previousAttemptToken)
    (LaneError.absentAcquireProjected stage.holder))
  let _ ← callDb fun db => db.finishAttemptAcquire stage false
  return ()

/-- An exact batch keeps the permit. -/
def keepBatched : HostScript Unit := do
  let _ ← callDb fun db => db.finishAttemptAcquire stage true
  let _ ← callDb fun db => db.finishAttemptAcquireBatch stage
  return ()

/-- Without a batch the permit goes back to `eligible`. -/
def rollBack (now : UnixTime) : HostScript Unit := do
  let release ← callDb fun db => db.finishStagedAcquireAsRelease stage
  let _ ← completeStagedAttemptRelease release now
  return ()

/-- A permit: it must be the exact reserved attempt of a dead process. -/
def recoverHeld (daemon : Daemon) (stage : StagedAttemptAcquire) (record : PermitRow)
    (hasBatch : Bool) : HostScript Unit := do
  let ledger ← Script.query fun host => host.ledger
  liftM (refuseIf (record.lane ≠ .scaleSet ∨ record.state ≠ .reserved
      ∨ ledger.isCurrentAttempt stage.holder stage.targetAttemptToken = false)
    (LaneError.notTheReservedAttempt stage.holder))
  let _ ← liftM (daemon.requireDeadPriorOwner ledger stage.holder)
  if hasBatch then keepBatched stage else rollBack stage (daemon.clock stage.requestId 0)

/-- One turn of the recovery loop. -/
def recoverStagedAcquire (daemon : Daemon) (stage : StagedAttemptAcquire) : HostScript Unit := do
  let db ← Script.query fun host => host.db
  let (demand, hasBatch) ← liftM (daemon.checkStagedAcquire stage db)
  let permit ← Script.query fun host => host.ledger.permits.get? stage.holder
  match permit with
  | none => recoverAbsent stage demand hasBatch
  | some record => recoverHeld daemon stage record hasBatch

def recoverAll (daemon : Daemon) : List StagedAttemptAcquire → HostScript Unit
  | [] => return ()
  | stage :: rest => do
    recoverStagedAcquire daemon stage
    recoverAll daemon rest

/-- Finish caller-token acquisitions left between the permit database and the
    Scale Set batch record. -/
def recoverStagedAttemptAcquisitions (daemon : Daemon) : HostScript Unit := do
  let stages ← Script.query fun host => host.db.pendingAttemptAcquires
  recoverAll daemon stages

/-! ## Resolving one stage -/

section Resolve

variable {stage} {daemon : Daemon} {host : Host} {d : Demand}

/-- The stage is gone, its request settled, and nothing else touched. -/
structure Resolved (stage : StagedAttemptAcquire) (host host' : Host) : Prop where
  only : OnlyAt stage.request host host'
  cleared : (host'.footprint stage.request).stage = none
  settled : Settled stage.request (host'.footprint stage.request)

theorem checkStagedAcquire_ok (hrec : Recoverable daemon stage (host.footprint stage.request))
    (hd : (host.footprint stage.request).demand = some d) {hasBatch : Bool}
    (hbatch : host.db.acquireBatchContainsAttempt stage.scaleSetId stage.requestId
      stage.targetAttemptToken = .ok hasBatch) :
    daemon.checkStagedAcquire stage host.db = .ok (d, hasBatch) := by
  obtain ⟨_, hd', hgranted, htoken⟩ := hrec.demand
  cases hd.symm.trans hd'
  obtain ⟨hget, hset⟩ := demandOf_eq_some_iff.mp hd
  have hworker : host.db.workerByRequest stage.requestId = none := hrec.worker
  have hintent : host.db.intentByRequest stage.scaleSetId stage.requestId = none := hrec.intent
  simp only [Daemon.checkStagedAcquire, bind_eq_ok, refuseIf_eq_ok, orRefuse_eq_ok]
  refine ⟨(), ?_, d, hget, (), ?_, (), ?_, (),
    Daemon.verifyRecoveryEvidence_ok hworker hrec.bare, hasBatch, ?_, rfl⟩
  · rintro (hne | hne | hempty)
    · exact hne hrec.set
    · exact hne stage.holder_eq
    · exact stage.target_nonempty hempty
  · rintro (hne | hne | ⟨hprevious, htarget⟩)
    · exact hne hset
    · exact hne hgranted
    · exact htoken.elim hprevious htarget
  · simp [hworker, hintent]
  · rw [hbatch]
    rfl

theorem recoverAbsent_run (hstage : (host.footprint stage.request).stage = some stage)
    (hd : (host.footprint stage.request).demand = some d) (hgranted : d.state = .granted)
    (hunheld : Unheld stage (host.footprint stage.request)) :
    ∃ host', (recoverAbsent stage d false).run host = (.ok (), host')
      ∧ Resolved stage host host' := by
  have htoken := hunheld.token d hd
  obtain ⟨_, hfinish, hread⟩ := finishAttemptAcquire_absent
    (pending_of_footprint hstage hd hgranted) htoken hunheld.batch
  obtain ⟨honly, hfp⟩ := footprint_clear host hread
  refine ⟨_, ?_, honly, ?_, ?_⟩
  · rw [recoverAbsent, run_lift_bind (refuseIf_pass Bool.false_ne_true _),
      run_lift_bind (refuseIf_pass (not_not_intro htoken) _),
      run_bind_of_ok (run_callDb hfinish)]
    rfl
  · rw [hfp]
  · rw [hfp]
    exact .inl ⟨hunheld.permit, hunheld.batch, d, hd, .inl hgranted⟩

/-- The checks on a held permit pass. -/
theorem recoverHeld_run {row : PermitRow} (hheld : Held daemon stage (host.footprint stage.request))
    (hrow : host.ledger.permits.get? stage.holder = some row) (hasBatch : Bool) :
    (recoverHeld daemon stage row hasBatch).run host = (if hasBatch then keepBatched stage
        else rollBack stage (daemon.clock stage.requestId 0)).run host := by
  obtain ⟨row', _, hrow', hlane, hstate, htoken, hpid, hdead⟩ := hheld.permit
  have hsame : row' = row := by
    have hget : host.ledger.permits.get? stage.request.holder = some row' := hrow'
    rw [stage.holder_request, hrow] at hget
    exact (Option.some.inj hget).symm
  subst hsame
  have hcurrent : host.ledger.isCurrentAttempt stage.holder stage.targetAttemptToken = true := by
    simp [PermitLedger.isCurrentAttempt, hrow, htoken]
  have hexact : ¬ (row'.lane ≠ .scaleSet ∨ row'.state ≠ .reserved
      ∨ host.ledger.isCurrentAttempt stage.holder stage.targetAttemptToken = false) := by
    rintro (hne | hne | hnot)
    · exact hne hlane
    · exact hne hstate
    · rw [hcurrent] at hnot
      cases hnot
  rw [recoverHeld, run_query_bind, run_lift_bind (refuseIf_pass hexact _),
    run_lift_bind (Daemon.requireDeadPriorOwner_ok hrow hlane hpid hdead)]

/-- With a durable batch the token is projected, the stage dropped and the
    permit kept. -/
theorem keepBatched_run (hstage : (host.footprint stage.request).stage = some stage)
    (hrec : Recoverable daemon stage (host.footprint stage.request))
    (hheld : Held daemon stage (host.footprint stage.request)) {batch : AcquireBatch}
    (hbatch : (host.footprint stage.request).batch = some batch) :
    ∃ host', (keepBatched stage).run host = (.ok (), host') ∧ Resolved stage host host' := by
  obtain ⟨d, hd, hgranted, htoken⟩ := hrec.demand
  have hcontains := hheld.batch batch hbatch
  obtain ⟨demands, hproject, hdemands⟩ := finishAttemptAcquire_acquired
    (pending_of_footprint hstage hd hgranted) htoken
  -- first the token, then the stage; the batch stays the proof
  obtain ⟨honly₁, hfp₁⟩ := footprint_project host hd hdemands
  have hstage₁ : (Host.footprint { host with db := { host.db with demands } }
      stage.request).stage = some stage := hstage
  have hd₁ : (Host.footprint { host with db := { host.db with demands } }
      stage.request).demand
        = some { d with permitAttemptToken := some stage.targetAttemptToken } := by
    rw [hfp₁]
  obtain ⟨_, hfinish, hacquires⟩ := finishAttemptAcquireBatch_ok
    (pending_of_footprint hstage₁ hd₁ hgranted) rfl (by
      have hlookup : { host.db with demands }.batchOf stage.scaleSetId stage.requestId
          = some batch := hbatch
      rw [acquireBatchContainsAttempt, hlookup]
      exact hcontains)
  obtain ⟨honly₂, hfp₂⟩ := footprint_clear { host with db := { host.db with demands } } hacquires
  refine ⟨_, ?_, honly₁.trans honly₂, ?_, ?_⟩
  · rw [keepBatched, run_bind_of_ok (run_callDb hproject), run_bind_of_ok (run_callDb hfinish)]
    rfl
  · rw [hfp₂]
  · rw [hfp₂, hfp₁]
    obtain ⟨row, _, hrow, -, -, hown, -⟩ := hheld.permit
    refine .inr ⟨row, _, batch, hrow, rfl, hbatch, ?_, ?_⟩
    · rw [hown]
    · rw [hown]
      exact (containsAttempt_eq_ok hcontains).2

/-- A held permit is the one its rollback releases. -/
theorem ownsPermit_toRelease (hheld : Held daemon stage (host.footprint stage.request)) :
    OwnsPermit host.ledger stage.toRelease := by
  obtain ⟨row, _, hrow, hlane, -, htoken, -⟩ := hheld.permit
  have hget : host.ledger.permits.get? stage.request.holder = some row := hrow
  have hqueued : host.ledger.queued stage.request.holder = some ⟨.scaleSet, .granted⟩ :=
    hheld.queued
  rw [stage.holder_request] at hget hqueued
  exact ⟨⟨row, hget, hlane, htoken⟩, .granted, hqueued, .inr ⟨rfl, .inr rfl⟩⟩

/-- The release a rollback journals is pending and can be applied. -/
theorem releasable_toRelease {db : StateDb}
    (hd : db.demandOf stage.scaleSetId stage.requestId
      = some { d with permitAttemptToken := some stage.targetAttemptToken })
    (hgranted : d.state = .granted)
    (hrelease : db.releases.get? stage.holder = some stage.toRelease)
    (hsidecar : db.releaseBatches.get? stage.holder = none) :
    db.stagedRelease stage.holder = some ⟨stage.toRelease, none, false⟩
      ∧ db.Projects stage.toRelease none := by
  have hside : db.releaseBatches.get? stage.toRelease.holder = none := hsidecar
  constructor
  · rw [stagedRelease, hrelease, Option.map_some, joinBatch, hside]
  refine ⟨fun next hnext => ?_, by rintro _ ⟨⟩, by rintro _ ⟨⟩⟩
  cases hnext
  refine ⟨_, hd, rfl, .inr ?_⟩
  rw [hgranted]
  rfl

/-- What the two database calls of a rollback leave of the tables. -/
structure RolledBack (stage : StagedAttemptAcquire) (db db' : StateDb) : Prop where
  demand : ∃ d', db'.demandOf stage.scaleSetId stage.requestId = some d' ∧ d'.state = .eligible
  demand_ne : ∀ k, k ≠ stage.requestId → db'.demands.get? k = db.demands.get? k
  acquire : ∀ k, db'.acquires.get? k = if k = stage.holder then none else db.acquires.get? k
  release_ne : ∀ k, k ≠ stage.holder → db'.releases.get? k = db.releases.get? k
  releaseBatch_ne : ∀ k, k ≠ stage.holder → db'.releaseBatches.get? k = db.releaseBatches.get? k
  batches : db'.batches = db.batches
  workers : db'.workers = db.workers
  intents : db'.intents = db.intents

/-- The stage converts to a release, and the release can be finished under any
    generation. -/
theorem rollBack_db {db : StateDb} (hpending : db.Pending stage d)
    (htoken : d.permitAttemptToken = stage.previousAttemptToken
      ∨ d.permitAttemptToken = some stage.targetAttemptToken)
    (hbatch : db.batchOf stage.scaleSetId stage.requestId = none)
    (hrelease : db.releases.get? stage.holder = none)
    (hsidecar : db.releaseBatches.get? stage.holder = none) :
    ∃ mid, db.finishStagedAcquireAsRelease stage = (.ok ⟨stage.toRelease, none, false⟩, mid)
      ∧ ∀ generation, ∃ db', mid.finishAttemptRelease stage.holder generation = (.ok true, db')
        ∧ RolledBack stage db db' := by
  obtain ⟨demands, releases, acquires, hconvert, hdemands, hreleases, hacquires⟩ :=
    finishStagedAcquireAsRelease_ok hpending htoken hbatch hrelease
  refine ⟨_, hconvert, fun generation => ?_⟩
  -- the release names the token just projected, so both its halves apply
  have hd : { db with demands, releases, acquires }.demandOf stage.scaleSetId stage.requestId
      = some { d with permitAttemptToken := some stage.targetAttemptToken } :=
    demandOf_eq_some_iff.mpr ⟨(hdemands _).trans (if_pos rfl),
      (demandOf_eq_some_iff.mp hpending.demand).2⟩
  obtain ⟨hstaged, hprojects⟩ := releasable_toRelease hd hpending.granted
    ((hreleases _).trans (if_pos rfl)) hsidecar
  obtain ⟨db', hfinish, hdone⟩ := finishAttemptRelease_ok
    ⟨stage.toRelease, none, false⟩ hstaged hprojects generation
  obtain ⟨hget, hset⟩ := demandOf_eq_some_iff.mp hd
  have hget' := (hdone.demand stage.requestId).trans (if_pos rfl)
  rw [hget, Option.map_some] at hget'
  refine ⟨db', hfinish, {
    demand := ⟨_, demandOf_eq_some_iff.mpr
      ⟨hget', (ReleaseRow.demandAfter_scaleSetId _ _ _).trans hset⟩,
      ReleaseRow.demandAfter_state rfl _ _⟩
    demand_ne := fun k hk =>
      ((hdone.demand k).trans (if_neg hk)).trans ((hdemands k).trans (if_neg hk))
    acquire := fun k => ?_
    release_ne := fun k hk =>
      ((hdone.release k).trans (if_neg hk)).trans ((hreleases k).trans (if_neg hk))
    releaseBatch_ne := fun k hk => (hdone.releaseBatch k).trans (if_neg hk)
    batches := hdone.batches rfl
    workers := hdone.workers rfl
    intents := by rw [hdone.rest] }⟩
  rw [hdone.rest]
  exact hacquires k

section

variable (hstage : (host.footprint stage.request).stage = some stage)
  (hrec : Recoverable daemon stage (host.footprint stage.request))
include hstage hrec

/-- Without a batch the stage becomes a release, which frees the permit and
    makes the demand eligible again. -/
theorem rollBack_run (hheld : Held daemon stage (host.footprint stage.request))
    (hbatch : (host.footprint stage.request).batch = none) (now : UnixTime) :
    ∃ host', (rollBack stage now).run host = (.ok (), host') ∧ Resolved stage host host' := by
  obtain ⟨_, hd, hgranted, htoken⟩ := hrec.demand
  have hholder := stage.holder_request
  have hnoRelease : host.db.releases.get? stage.holder = none := hholder ▸ hrec.release
  have hnoSidecar : host.db.releaseBatches.get? stage.holder = none := hholder ▸ hrec.releaseBatch
  have howns := ownsPermit_toRelease hheld
  -- the ledger is released between the two database calls
  obtain ⟨_, hconvert, hfinishes⟩ := rollBack_db (pending_of_footprint hstage hd hgranted)
    htoken hbatch hnoRelease hnoSidecar
  obtain ⟨db', hfinish, hdone⟩ :=
    hfinishes (freed host.ledger stage.toRelease (i64OfU64 now.secs)).generation
  obtain ⟨d', hd', heligible⟩ := hdone.demand
  refine ⟨⟨freed host.ledger stage.toRelease (i64OfU64 now.secs), db'⟩, ?_, ?_, ?_, .inl ?_⟩
  · rw [rollBack, run_bind_of_ok (run_callDb hconvert)]
    apply run_bind_of_ok
    exact completeStagedAttemptRelease_run (release_of_owns howns now) rfl hfinish
  · have hne : ∀ k, k ≠ stage.request.holder → k ≠ stage.holder := fun k hk => hholder ▸ hk
    exact WritesAt.onlyAt {
      permit := fun k hk => (get?_freed howns _ k).trans (if_neg (hne k hk))
      queued := fun k hk => (queued_freed howns _ k).trans (if_neg (hne k hk))
      demand := fun q' hq => demandOf_ne (q := stage.request) hq hd hd' hdone.demand_ne
      stage := fun k hk => (hdone.acquire k).trans (if_neg (hne k hk))
      release := fun k hk => hdone.release_ne k (hne k hk)
      releaseBatch := fun k hk => hdone.releaseBatch_ne k (hne k hk)
      batches := hdone.batches
      workers := hdone.workers
      intents := hdone.intents }
  · exact (hdone.acquire _).trans (if_pos hholder)
  · refine ⟨(get?_freed howns _ _).trans (if_pos hholder), ?_, d', hd', .inr heligible⟩
    show db'.batchOf stage.scaleSetId stage.requestId = none
    rw [batchOf, hdone.batches]
    exact hbatch

/-- One turn of the loop resolves its stage. -/
theorem recoverStagedAcquire_run :
    ∃ host', (recoverStagedAcquire daemon stage).run host = (.ok (), host')
      ∧ Resolved stage host host' := by
  obtain ⟨d, hd, hgranted, -⟩ := hrec.demand
  -- the reads that every case starts with
  have hstart : ∀ {hasBatch : Bool}, host.db.acquireBatchContainsAttempt stage.scaleSetId
      stage.requestId stage.targetAttemptToken = .ok hasBatch →
      (recoverStagedAcquire daemon stage).run host
        = (match host.ledger.permits.get? stage.holder with
          | none => recoverAbsent stage d hasBatch
          | some record => recoverHeld daemon stage record hasBatch).run host := by
    intro _ hbatch
    rw [recoverStagedAcquire, run_query_bind, run_lift_bind (checkStagedAcquire_ok hrec hd hbatch)]
    exact run_query_bind _ _ _
  have hpermit : host.ledger.permits.get? stage.holder = (host.footprint stage.request).permit := by
    rw [Host.footprint, stage.holder_request]
  -- the three places a crash can leave a stage in
  rcases hrec.place with hunheld | hheld
  · rw [hstart (acquireBatchContainsAttempt_none hunheld.batch), hpermit, hunheld.permit]
    exact recoverAbsent_run hstage hd hgranted hunheld
  obtain ⟨_, -, hrow, -⟩ := hheld.permit
  rw [hrow] at hpermit
  cases hbatch : (host.footprint stage.request).batch with
  | none =>
    rw [hstart (acquireBatchContainsAttempt_none hbatch), hpermit]
    rw [recoverHeld_run hheld hpermit]
    exact rollBack_run hstage hrec hheld hbatch _
  | some batch =>
    have hcontains : host.db.acquireBatchContainsAttempt stage.scaleSetId stage.requestId
        stage.targetAttemptToken = .ok true := by
      have hlookup : host.db.batchOf stage.scaleSetId stage.requestId = some batch := hbatch
      rw [acquireBatchContainsAttempt, hlookup]
      exact hheld.batch batch hbatch
    rw [hstart hcontains, hpermit]
    rw [recoverHeld_run hheld hpermit]
    exact keepBatched_run hstage hrec hheld hbatch

end

end Resolve

/-! ## The whole run -/

section Run

variable {daemon : Daemon} {host : Host}

/-- A run over pending stages of distinct requests settles each of them and
    touches no other request. -/
theorem recoverAll_run (stages : List StagedAttemptAcquire)
    (hdistinct : (stages.map request).Nodup)
    (hpending : ∀ stage ∈ stages, (host.footprint stage.request).stage = some stage
      ∧ Recoverable daemon stage (host.footprint stage.request)) :
    ∃ host', (recoverAll daemon stages).run host = (.ok (), host')
      ∧ (∀ q, q ∉ stages.map request → host'.footprint q = host.footprint q)
      ∧ ∀ q ∈ stages.map request,
        (host'.footprint q).stage = none ∧ Settled q (host'.footprint q) := by
  induction stages generalizing host with
  | nil => exact ⟨host, rfl, fun _ _ => rfl, nofun⟩
  | cons stage rest ih =>
    obtain ⟨hnotMem, hrest⟩ := nodup_cons.mp hdistinct
    obtain ⟨hstage, hrec⟩ := hpending stage mem_cons_self
    obtain ⟨host₁, hrun₁, hresolved⟩ := recoverStagedAcquire_run hstage hrec
    -- the later stages are other requests', which this turn left alone
    have hpending₁ : ∀ other ∈ rest,
        (host₁.footprint other.request).stage = some other
          ∧ Recoverable daemon other (host₁.footprint other.request) := by
      intro other hother
      have hne : other.request ≠ stage.request := by
        intro heq
        exact hnotMem (mem_map.mpr ⟨other, hother, heq⟩)
      rw [hresolved.only _ hne]
      exact hpending other (mem_cons_of_mem stage hother)
    obtain ⟨host₂, hrun₂, hframe, hsettled⟩ := ih hrest hpending₁
    refine ⟨host₂, ?_, fun q hq => ?_, fun q hq => ?_⟩
    · rw [recoverAll, run_bind_of_ok hrun₁]
      exact hrun₂
    · rw [map_cons, mem_cons, not_or] at hq
      rw [hframe q hq.2, hresolved.only q hq.1]
    · by_cases hin : q ∈ rest.map request
      · exact hsettled q hin
      have hhead : q = stage.request := by
        rw [map_cons, mem_cons] at hq
        exact hq.resolve_right hin
      rw [hframe q hin, hhead]
      exact ⟨hresolved.cleared, hresolved.settled⟩

theorem mem_pendingAttemptAcquires {db : StateDb} {stage : StagedAttemptAcquire} :
    stage ∈ db.pendingAttemptAcquires ↔ stage ∈ db.acquires.rows :=
  mem_insertionSort _

theorem nodup_pendingAttemptAcquires (db : StateDb) :
    (db.pendingAttemptAcquires.map request).Nodup := by
  have hperm : (db.pendingAttemptAcquires.map request).Perm (db.acquires.rows.map request) :=
    (perm_insertionSort _ _).map _
  rw [hperm.nodup_iff]
  have hholders : ((db.acquires.rows.map request).map Request.holder).Nodup := by
    rw [map_map]
    have heq : Request.holder ∘ request = holder := funext holder_request
    rw [heq]
    exact db.acquires.keyNodup
  exact List.Nodup.of_map _ hholders

/-- From any host a crash may leave, the recovery goes through, leaves no stage
    pending and every request of the pass settled. -/
theorem recoverStagedAttemptAcquisitions_run {requests : List Request}
    (hsafe : CutSafe daemon requests host) :
    ∃ host', (recoverStagedAttemptAcquisitions daemon).run host = (.ok (), host')
      ∧ host'.db.acquires.rows = []
      ∧ ∀ q ∈ requests, Settled q (host'.footprint q) := by
  have hpending : ∀ stage ∈ host.db.pendingAttemptAcquires,
      (host.footprint stage.request).stage = some stage
        ∧ Recoverable daemon stage (host.footprint stage.request) := by
    intro stage hmem
    have hstage := stage_of_mem (mem_pendingAttemptAcquires.mp hmem)
    exact ⟨hstage, (hsafe _).pending stage hstage⟩
  obtain ⟨host', hrun, hframe, hsettled⟩ := recoverAll_run _
    (nodup_pendingAttemptAcquires host.db) hpending
  -- a request is cleared by the run or had nothing pending before it
  have hcleared : ∀ q, (host'.footprint q).stage = none := by
    intro q
    by_cases hin : q ∈ host.db.pendingAttemptAcquires.map request
    · exact (hsettled q hin).1
    rw [hframe q hin]
    by_contra hsome
    obtain ⟨stage, hstage⟩ := Option.ne_none_iff_exists'.mp hsome
    have hmem := mem_pendingAttemptAcquires.mpr (mem_of_stage hstage)
    exact hin (mem_map.mpr ⟨stage, hmem, request_of_stage hstage⟩)
  -- nothing is pending afterwards: a stage left over would be some request's
  refine ⟨host', ?_, ?_, fun q hq => ?_⟩
  · rw [recoverStagedAttemptAcquisitions]
    exact hrun
  · apply eq_nil_iff_forall_not_mem.mpr
    intro stage hmem
    cases (hcleared stage.request).symm.trans (stage_of_mem hmem)
  · by_cases hin : q ∈ host.db.pendingAttemptAcquires.map request
    · exact (hsettled q hin).2
    · have hnone := hcleared q
      rw [hframe q hin] at hnone ⊢
      exact (hsafe q).settled hnone hq

/-- With nothing pending the recovery does nothing. -/
theorem recoverStagedAttemptAcquisitions_idle (h : host.db.acquires.rows = []) :
    (recoverStagedAttemptAcquisitions daemon).run host = (.ok (), host) := by
  rw [recoverStagedAttemptAcquisitions, run_query_bind, pendingAttemptAcquires, h]
  rfl

end Run

end Velnor.Scaleset
