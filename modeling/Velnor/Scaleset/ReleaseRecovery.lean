/-
  `recover_staged_attempt_releases` (scaleset/lane.rs): the pass a daemon makes
  at startup over the releases a crash left pending.  A stage is replayed only
  once its worker's containers are proven gone and the permit's owner proven
  dead, and the first stage that is refused stops the pass.

  `Stands` is where a cut release and any number of passes, torn or whole, can
  leave a host: each stage that was pending is untouched, freed or closed, and
  nothing else has moved.
-/
import Velnor.Scaleset.Daemon
import Velnor.Scaleset.ReleaseProtocol

namespace Velnor.Scaleset

open Relational Script StateDb List
open Velnor.Control (Holder Token PermitLedger PermitRow UnixTime Queued i64OfU64 u32OfI64)

/-! ## The pass -/

/-- The worker a staged release names: cleaned up, and its containers gone. -/
def Daemon.checkReleasedWorker (daemon : Daemon) (row : ReleaseRow) (ownershipId : String)
    (db : StateDb) : Except LaneError Unit := do
  let worker ← orRefuse (db.workers.get? ownershipId) .stagedReleaseHasNoWorker
  refuseIf (worker.ownershipId ≠ ownershipId
      ∨ worker.permitAttemptToken ≠ some row.attemptToken
      ∨ worker.workerState.cleanupReady = false)
    (.stagedReleaseWorkerChanged row.holder)
  let present ← daemon.verifyRecoveryContainers worker.runnerName
  refuseIf (present ≠ (false, false)) (.stagedReleaseHasContainers row.holder)

/-- What is proven of a stage before its permit is looked at. -/
def Daemon.checkStagedRelease (daemon : Daemon) (row : ReleaseRow) (db : StateDb) :
    Except LaneError Unit := do
  refuseIf (row.scaleSetId ≠ daemon.scaleSetId
      ∨ row.holder ≠ permitHolder row.scaleSetId row.requestId)
    (.invalidStagedRelease row.holder)
  match row.workerOwnershipId with
  | none => return ()
  | some ownershipId => daemon.checkReleasedWorker row ownershipId db

/-- A permit that is still there must be a dead process's. -/
def Daemon.checkReleasedOwner (daemon : Daemon) (ledger : PermitLedger) (holder : Holder) :
    Except LaneError Unit := do
  if (ledger.permits.get? holder).isSome then
    let _ ← daemon.requireDeadPriorOwner ledger holder
    return ()
  else return ()

/-- One turn of the loop. -/
def recoverStagedRelease (daemon : Daemon) (stage : StagedAttemptRelease) : HostScript Unit := do
  let db ← Script.query fun host => host.db
  liftM (daemon.checkStagedRelease stage.row db)
  let ledger ← Script.query fun host => host.ledger
  liftM (daemon.checkReleasedOwner ledger stage.row.holder)
  let _ ← completeStagedAttemptRelease stage (daemon.clock stage.row.requestId 0)
  return ()

def recoverReleases (daemon : Daemon) : List StagedAttemptRelease → HostScript Unit
  | [] => return ()
  | stage :: rest => do
    recoverStagedRelease daemon stage
    recoverReleases daemon rest

/-- Replay every pending release. -/
def recoverStagedAttemptReleases (daemon : Daemon) : HostScript Unit := do
  let stages ← Script.query fun host => host.db.pendingAttemptReleases
  recoverReleases daemon stages

/-! ## When a stage is replayed -/

/-- The release is journaled and not finished. -/
def Host.Pending (host : Host) (stage : StagedAttemptRelease) : Prop :=
  host.db.stagedRelease stage.row.holder = some stage

/-- The permit's recorded owner is a process the daemon outlives. -/
def Daemon.OutlivesOwner (daemon : Daemon) (ledger : PermitLedger) (holder : Holder) : Prop :=
  ∃ permit pid, ledger.permits.get? holder = some permit ∧ permit.pid.bind u32OfI64 = some pid
    ∧ daemon.Outlives pid

/-- What the startup pass asks of a stage: it is the daemon's own set's, its
    projections can be applied, no container of its worker is left, and its
    permit is a dead process's or freed already. -/
structure Daemon.Replays (daemon : Daemon) (host : Host) (stage : StagedAttemptRelease) : Prop where
  set : stage.row.scaleSetId = daemon.scaleSetId
  projects : host.db.Projects stage.row stage.batchId
  gone : ∀ ownershipId worker, stage.row.workerOwnershipId = some ownershipId →
    host.db.workers.get? ownershipId = some worker → daemon.Gone worker.runnerName
  place : OwnsPermit host.ledger stage.row
      ∧ daemon.OutlivesOwner host.ledger stage.row.holder
    ∨ PermitFreed host.ledger stage.row

section Checks

variable {daemon : Daemon} {host : Host} {stage : StagedAttemptRelease}

theorem checkStagedRelease_ok (h : daemon.Replays host stage) :
    daemon.checkStagedRelease stage.row host.db = .ok () := by
  have hidentity : ¬ (stage.row.scaleSetId ≠ daemon.scaleSetId
      ∨ stage.row.holder ≠ permitHolder stage.row.scaleSetId stage.row.requestId) := by
    rintro (hset | hholder)
    · exact hset h.set
    · exact hholder stage.row.holder_eq
  rw [Daemon.checkStagedRelease, refuseIf_pass hidentity, ok_bind]
  cases hid : stage.row.workerOwnershipId with
  | none => rfl
  | some ownershipId =>
    obtain ⟨worker, hw, htoken, hready⟩ := h.projects.worker ownershipId hid
    obtain ⟨hget, -⟩ := workerOf_eq_some_iff.mp hw
    have hkey : worker.ownershipId = ownershipId := Table.key_of_get? hget
    have hgone := Daemon.verifyRecoveryContainers_gone (h.gone ownershipId worker hid hget)
    simp only [Daemon.checkReleasedWorker, bind_eq_ok, refuseIf_eq_ok, orRefuse_eq_ok]
    refine ⟨worker, hget, (), ?_, (false, false), hgone, not_not_intro rfl⟩
    simp [hkey, htoken, hready]

theorem checkReleasedOwner_ok (h : daemon.Replays host stage) :
    daemon.checkReleasedOwner host.ledger stage.row.holder = .ok () := by
  unfold Daemon.checkReleasedOwner
  rcases h.place with ⟨howns, permit, pid, hpermit, hpid, hdead⟩ | hfreed
  · obtain ⟨_, hpermit', hlane, -⟩ := howns.permit
    cases hpermit.symm.trans hpermit'
    rw [hpermit, Daemon.requireDeadPriorOwner_ok hpermit hlane hpid hdead]
    rfl
  · rw [hfreed.permit]
    rfl

end Checks

/-! ## What a replay can have done -/

/-- Where the two databases hold what a release reads or writes. -/
inductive Cell where
  /-- The permit, the ledger demand and the pending release of a holder. -/
  | holder (k : Holder)
  | demand (k : Int)
  | worker (k : String)
  /-- The members of an acquire batch. -/
  | members (k : String)
  | generation

abbrev Cell.Value : Cell → Type
  | holder _ => Option PermitRow × Option Queued × Option StagedAttemptRelease
  | demand _ => Option Demand
  | worker _ => Option WorkerRow
  | members _ => Option (Int × List Int × Option (List (Option Token)))
  | generation => Nat

def Host.read (host : Host) : (c : Cell) → c.Value
  | .holder k => (host.ledger.permits.get? k, host.ledger.queued k, host.db.stagedRelease k)
  | .demand k => host.db.demands.get? k
  | .worker k => host.db.workers.get? k
  | .members k => (host.db.batches.get? k).map membersOf
  | .generation => host.ledger.generation

namespace ReleaseRow

variable (row : ReleaseRow)

/-- The cells that are the release's own. -/
def Owns : Cell → Prop
  | .holder k => k = row.holder
  | .demand k => k = row.requestId
  | .worker k => row.workerOwnershipId = some k
  | .members _ | .generation => False

/-- What its ledger half makes of them. -/
def freed : (c : Cell) → c.Value → c.Value
  | .holder _, (_, _, stage) => (none, some ⟨.scaleSet, row.ledgerDemandState⟩, stage)
  | .demand _, value | .worker _, value | .members _, value | .generation, value => value

/-- What both halves make of them, under the ledger's `generation`. -/
def closed (generation : Nat) : (c : Cell) → c.Value → c.Value
  | .holder _, _ => (none, some ⟨.scaleSet, row.ledgerDemandState⟩, none)
  | .demand _, demand => demand.map (row.demandAfter generation)
  | .worker _, worker => worker.map (workerAfter generation)
  | .members _, value | .generation, value => value

end ReleaseRow

/-- Two hosts that differ, if at all, in the cells of the releases in `P`. -/
def AgreeBut (P : StagedAttemptRelease → Prop) (h h' : Host) : Prop :=
  ∀ c, (∀ s, P s → ¬ s.row.Owns c) → h'.read c = h.read c

/-- The cells of the release hold what `f` makes of them. -/
def Moved (row : ReleaseRow) (f : (c : Cell) → c.Value → c.Value) (h h' : Host) : Prop :=
  ∀ c, row.Owns c → h'.read c = f c (h.read c)

section Frames

variable {P Q : StagedAttemptRelease → Prop} {h h' h'' : Host} {s : StagedAttemptRelease}
  {ledger : PermitLedger}

theorem AgreeBut.trans (h₁ : AgreeBut P h h') (h₂ : AgreeBut P h' h'') : AgreeBut P h h'' :=
  fun c hc => (h₂ c hc).trans (h₁ c hc)

theorem AgreeBut.mono (hPQ : ∀ s, P s → Q s) (hP : AgreeBut P h h') : AgreeBut Q h h' :=
  fun c hc => hP c fun s hs => hc s (hPQ s hs)

/-- The ledger half of a release touches its own cells alone. -/
theorem read_freed (hfrees : Frees s.row h.ledger ledger) :
    AgreeBut (· = s) h ⟨ledger, h.db⟩ ∧ Moved s.row s.row.freed h ⟨ledger, h.db⟩ := by
  refine ⟨fun c hc => ?_, fun c hc => ?_⟩
  · have hother := hc s rfl
    cases c with
    | holder k =>
      have hk : k ≠ s.row.holder := hother
      simp only [Host.read, hfrees.permit, hfrees.queued, if_neg hk]
    | generation => exact hfrees.generation
    | demand | worker | members => rfl
  · cases c with
    | holder =>
      cases hc
      simp only [Host.read, hfrees.permit, hfrees.queued, if_true, ReleaseRow.freed]
    | demand | worker => rfl
    | members | generation => cases hc

/-- So do both halves. -/
theorem read_closed {generation : Nat} {db : StateDb} (hfrees : Frees s.row h.ledger ledger)
    (hdone : h.db.Finished s generation db) :
    AgreeBut (· = s) h ⟨ledger, db⟩ ∧ Moved s.row (s.row.closed generation) h ⟨ledger, db⟩ := by
  refine ⟨fun c hc => ?_, fun c hc => ?_⟩
  · have hother := hc s rfl
    cases c with
    | holder k =>
      have hk : k ≠ s.row.holder := hother
      simp only [Host.read, hfrees.permit, hfrees.queued, hdone.pending, if_neg hk]
    | demand k => exact (hdone.demand k).trans (if_neg hother)
    | worker k => exact (hdone.worker k).trans (if_neg hother)
    | members k => exact hdone.members k
    | generation => exact hfrees.generation
  · cases c with
    | holder =>
      cases hc
      simp only [Host.read, hfrees.permit, hfrees.queued, hdone.pending, if_true, ReleaseRow.closed]
    | demand k => exact (hdone.demand k).trans (if_pos hc)
    | worker k => exact (hdone.worker k).trans (if_pos hc)
    | members | generation => cases hc

end Frames

/-! ## Where a crash can leave the host -/

/-- Since `base` only its pending releases have moved, each to one of three
    places. -/
structure Stands (base h : Host) : Prop where
  agree : AgreeBut base.Pending base h
  place : ∀ s, base.Pending s →
    Moved s.row (fun _ value => value) base h
      ∨ Moved s.row s.row.freed base h
      ∨ Moved s.row (s.row.closed base.ledger.generation) base h

/-- Every release pending on the host can be replayed. -/
def Daemon.ReplaysAll (daemon : Daemon) (base : Host) : Prop :=
  ∀ s, base.Pending s → daemon.Replays base s

section Steps

variable {daemon : Daemon} {base h h' : Host} {s t : StagedAttemptRelease}

theorem Stands.refl (base : Host) : Stands base base :=
  ⟨fun _ _ => rfl, fun _ _ => .inl fun _ _ => rfl⟩

/-- Different releases of one scale set share no cell. -/
theorem apart_of_replaysAll (hall : daemon.ReplaysAll base) (hs : base.Pending s)
    (ht : base.Pending t) (hne : s ≠ t) {c : Cell} (hown : t.row.Owns c) : ¬ s.row.Owns c := by
  have hholder : s.row.holder ≠ t.row.holder := by
    intro heq
    have hsome : some s = some t := by rw [← hs, ← ht, heq]
    exact hne (Option.some.inj hsome)
  have hrequest : s.row.requestId ≠ t.row.requestId := by
    intro heq
    apply hholder
    rw [s.row.holder_eq, t.row.holder_eq, (hall s hs).set, (hall t ht).set, heq]
  intro hown'
  cases c with
  | holder => exact hholder (hown'.symm.trans hown)
  | demand => exact hrequest (hown'.symm.trans hown)
  | worker k =>
    -- a worker row is one request's
    obtain ⟨_, hws, -⟩ := (hall s hs).projects.worker k hown'
    obtain ⟨_, hwt, -⟩ := (hall t ht).projects.worker k hown
    obtain ⟨hget, hreq⟩ := workerOf_eq_some_iff.mp hws
    obtain ⟨hget', hreq'⟩ := workerOf_eq_some_iff.mp hwt
    cases hget.symm.trans hget'
    exact hrequest (Option.some.inj (hreq.symm.trans hreq'))
  | members | generation => exact hown

/-- A release that is pending was so, and is untouched or freed. -/
theorem Stands.pending (hS : Stands base h) (hs : h.Pending s) :
    base.Pending s ∧ (Moved s.row (fun _ value => value) base h
      ∨ Moved s.row s.row.freed base h) := by
  -- what the holder's cell shows of the stage
  have hstage : ∀ {f : (c : Cell) → c.Value → c.Value} {t : StagedAttemptRelease},
      t.row.holder = s.row.holder → Moved t.row f base h →
      (f (.holder s.row.holder) (base.read (.holder s.row.holder))).2.2 = some s := by
    intro f t hholder hmoved
    rw [← hmoved (.holder s.row.holder) hholder.symm]
    exact hs
  have hbase : base.Pending s := by
    cases hread : base.db.stagedRelease s.row.holder with
    | none =>
      have hsame := hS.agree (.holder s.row.holder) fun t ht heq => by
        rw [Host.Pending, ← heq, hread] at ht
        cases ht
      cases (hs.symm.trans (congrArg (·.2.2) hsame)).trans hread
    | some t =>
      have hholder := holder_of_stagedRelease hread
      rcases hS.place t (by rw [Host.Pending, hholder, hread]) with hmoved | hmoved | hmoved
      · exact hread.trans (hread.symm.trans (hstage hholder hmoved))
      · exact hread.trans (hread.symm.trans (hstage hholder hmoved))
      · cases hstage hholder hmoved
  refine ⟨hbase, ?_⟩
  rcases hS.place s hbase with hmoved | hmoved | hmoved
  · exact .inl hmoved
  · exact .inr hmoved
  · cases hstage rfl hmoved

variable (hall : daemon.ReplaysAll base) (hS : Stands base h) (hs : h.Pending s)
include hall hS hs

/-- One half of one pending release. -/
theorem Stands.step (honly : AgreeBut (· = s) h h')
    (hmoved : Moved s.row s.row.freed h h'
      ∨ Moved s.row (s.row.closed base.ledger.generation) h h') : Stands base h' := by
  obtain ⟨hbase, hplace⟩ := hS.pending hs
  refine ⟨hS.agree.trans (honly.mono fun t (ht : t = s) => ht ▸ hbase), fun t ht => ?_⟩
  by_cases hst : s = t
  · -- a second freeing, and a closing from either place, lead where the first did
    subst hst
    have hfirst : ∀ c, s.row.Owns c → s.row.freed c (h.read c) = s.row.freed c (base.read c)
        ∧ s.row.closed base.ledger.generation c (h.read c)
          = s.row.closed base.ledger.generation c (base.read c) := by
      intro c hc
      rcases hplace with hbefore | hbefore <;> rw [hbefore c hc]
      · exact ⟨rfl, rfl⟩
      · cases c <;> exact ⟨rfl, rfl⟩
    rcases hmoved with hmoved | hmoved
    · exact .inr (.inl fun c hc => (hmoved c hc).trans (hfirst c hc).1)
    · exact .inr (.inr fun c hc => (hmoved c hc).trans (hfirst c hc).2)
  · -- the cells of another release did not move
    have hsame : ∀ c, t.row.Owns c → h'.read c = h.read c := fun c hc =>
      honly c fun u (hu : u = s) => hu ▸ apart_of_replaysAll hall hbase ht hst hc
    exact (hS.place t ht).imp (fun hplace c hc => (hsame c hc).trans (hplace c hc))
      (.imp (fun hplace c hc => (hsame c hc).trans (hplace c hc))
        fun hplace c hc => (hsame c hc).trans (hplace c hc))

/-- What is asked of a stage is still given while it is pending. -/
theorem Stands.replays : daemon.Replays h s := by
  obtain ⟨hbase, hplace⟩ := hS.pending hs
  have hrec := hall s hbase
  -- of the cells the checks read only the holder's can have moved
  have hdemand : h.db.demands.get? s.row.requestId = base.db.demands.get? s.row.requestId :=
    hplace.elim (fun hmoved => hmoved (.demand _) rfl) fun hmoved => hmoved (.demand _) rfl
  have hworker : ∀ k, s.row.workerOwnershipId = some k →
      h.db.workers.get? k = base.db.workers.get? k := fun k hk =>
    hplace.elim (fun hmoved => hmoved (.worker k) hk) fun hmoved => hmoved (.worker k) hk
  refine ⟨hrec.set, hrec.projects.congr hdemand hworker fun k =>
    hS.agree (.members k) fun _ _ hown => hown, fun k w hk hw => ?_, ?_⟩
  · rw [hworker k hk] at hw
    exact hrec.gone k w hk hw
  rcases hplace with hmoved | hmoved
  · have hread := hmoved (.holder _) rfl
    have hpermit : h.ledger.permits.get? s.row.holder = base.ledger.permits.get? s.row.holder :=
      congrArg (·.1) hread
    have hqueued : h.ledger.queued s.row.holder = base.ledger.queued s.row.holder :=
      congrArg (·.2.1) hread
    rcases hrec.place with ⟨howns, howner⟩ | hfreed
    · refine .inl ⟨⟨?_, ?_⟩, ?_⟩
      · rw [hpermit]
        exact howns.permit
      · rw [hqueued]
        exact howns.demand
      · rw [Daemon.OutlivesOwner, hpermit]
        exact howner
    · exact .inr ⟨hpermit.trans hfreed.permit, hqueued.trans hfreed.queued⟩
  · have hread := hmoved (.holder _) rfl
    exact .inr ⟨congrArg (·.1) hread, congrArg (·.2.1) hread⟩

/-- Completing a pending release, cut anywhere, stays within the places; at its
    end the stage is gone. -/
theorem complete_succeeds (now : UnixTime) : Succeeds (Stands base)
      (fun _ h' => Stands base h' ∧ ∀ k, h'.db.stagedRelease k
        = if k = s.row.holder then none else h.db.stagedRelease k)
      (completeStagedAttemptRelease s now) h := by
  have hrec := hS.replays hall hs
  obtain ⟨outcome, released, ledger, hrelease, hreleased, hfrees⟩ :=
    release_frees (hrec.place.imp_left And.left) now
  have hgeneration : ledger.generation = base.ledger.generation :=
    hfrees.generation.trans (hS.agree .generation fun _ _ hown => hown)
  obtain ⟨db, hfinish, hdone⟩ :=
    finishAttemptRelease_ok s hs hrec.projects base.ledger.generation
  have hfreed : Stands base ⟨ledger, h.db⟩ :=
    hS.step hall hs (read_freed hfrees).1 (.inl (read_freed hfrees).2)
  have hclosed : Stands base ⟨ledger, db⟩ :=
    hS.step hall hs (read_closed hfrees hdone).1 (.inr (read_closed hfrees hdone).2)
  have htarget := refuseIf_pass (c := releasesTo s.row.ledgerDemandState = false)
    (by simp [s.row.ledger_check]) (LaneError.invalidReleaseTarget s.row.holder)
  refine succeeds_bind (Q := fun a h' => a = outcome ∧ h' = ⟨ledger, h.db⟩)
    (succeeds_callLedger hrelease hS hfreed ⟨rfl, rfl⟩) ?_
  rintro _ _ ⟨rfl, rfl⟩
  apply succeeds_lift_bind hreleased
  apply succeeds_lift_bind htarget
  apply succeeds_query_bind hfreed
  rw [hgeneration]
  refine succeeds_bind (Q := fun _ h' => h' = ⟨ledger, db⟩)
    (succeeds_callDb hfinish hfreed hclosed rfl) ?_
  rintro _ _ rfl
  exact succeeds_pure hclosed ⟨hclosed, hdone.pending⟩

/-- One turn of the loop. -/
theorem recoverStagedRelease_succeeds : Succeeds (Stands base)
      (fun _ h' => Stands base h' ∧ ∀ k, h'.db.stagedRelease k
        = if k = s.row.holder then none else h.db.stagedRelease k)
      (recoverStagedRelease daemon s) h := by
  have hrec := hS.replays hall hs
  apply succeeds_query_bind hS
  apply succeeds_lift_bind (checkStagedRelease_ok hrec)
  apply succeeds_query_bind hS
  apply succeeds_lift_bind (checkReleasedOwner_ok hrec)
  exact succeeds_bind (complete_succeeds hall hS hs _) fun _ _ hQ => succeeds_pure hQ.1 hQ

end Steps

/-! ## The whole pass -/

section Pass

variable {daemon : Daemon} {base h : Host}

theorem recoverReleases_succeeds (hall : daemon.ReplaysAll base)
    (stages : List StagedAttemptRelease) (hdistinct : (stages.map (·.row.holder)).Nodup)
    (hS : Stands base h) (hstages : ∀ s ∈ stages, h.Pending s) :
    Succeeds (Stands base)
      (fun _ h' => Stands base h' ∧ ∀ k, h'.db.stagedRelease k
        = if k ∈ stages.map (·.row.holder) then none else h.db.stagedRelease k)
      (recoverReleases daemon stages) h := by
  -- over the stages, each turn leaving the later ones pending
  induction stages generalizing h with
  | nil => exact succeeds_pure hS ⟨hS, fun _ => (if_neg not_mem_nil).symm⟩
  | cons s rest ih =>
    obtain ⟨hnotMem, hrest⟩ := nodup_cons.mp hdistinct
    refine succeeds_bind (recoverStagedRelease_succeeds hall hS (hstages s mem_cons_self)) ?_
    rintro _ h₁ ⟨hS₁, hread⟩
    have hstages₁ : ∀ t ∈ rest, h₁.Pending t := by
      intro t ht
      have hne : t.row.holder ≠ s.row.holder := fun heq =>
        hnotMem (mem_map.mpr ⟨t, ht, heq⟩)
      rw [Host.Pending, hread, if_neg hne]
      exact hstages t (mem_cons_of_mem s ht)
    have hloop := ih hrest hS₁ hstages₁
    refine ⟨⟨hloop.cuts, fun a h₂ hrun => ?_⟩, hloop.goesThrough⟩
    obtain ⟨hS₂, hread₂⟩ := hloop.returns a h₂ hrun
    refine ⟨hS₂, fun k => ?_⟩
    rw [hread₂, hread, map_cons]
    by_cases hk : k = s.row.holder <;> simp [hk]

theorem mem_pendingAttemptReleases {db : StateDb} {s : StagedAttemptRelease} :
    s ∈ db.pendingAttemptReleases ↔ db.stagedRelease s.row.holder = some s := by
  simp only [pendingAttemptReleases, mem_map, mem_insertionSort, stagedRelease,
    Option.map_eq_some_iff]
  constructor
  · rintro ⟨row, hrow, rfl⟩
    rw [row_joinBatch]
    exact ⟨row, Table.get?_of_mem hrow, rfl⟩
  · rintro ⟨row, hrow, hjoin⟩
    exact ⟨row, Table.mem_of_get? hrow, hjoin⟩

theorem nodup_pendingAttemptReleases (db : StateDb) :
    (db.pendingAttemptReleases.map (·.row.holder)).Nodup := by
  have hholders : db.pendingAttemptReleases.map (·.row.holder)
      = (db.releases.rows.insertionSort fun a b => a.holder ≤ b.holder).map ReleaseRow.holder := by
    rw [pendingAttemptReleases, map_map]
    exact map_congr_left fun row _ => congrArg ReleaseRow.holder (row_joinBatch db row)
  rw [hholders, ((perm_insertionSort _ _).map _).nodup_iff]
  exact db.releases.keyNodup

/-- A pass, cut anywhere, stays within the places; a whole one leaves nothing
    pending. -/
theorem recoverStagedAttemptReleases_succeeds (hall : daemon.ReplaysAll base)
    (hS : Stands base h) :
    Succeeds (Stands base)
      (fun _ h' => Stands base h' ∧ ∀ k, h'.db.stagedRelease k = none)
      (recoverStagedAttemptReleases daemon) h := by
  apply succeeds_query_bind hS
  have hloop := recoverReleases_succeeds hall _ (nodup_pendingAttemptReleases h.db) hS
    fun s hs => mem_pendingAttemptReleases.mp hs
  refine ⟨⟨hloop.cuts, fun a h' hrun => ?_⟩, hloop.goesThrough⟩
  obtain ⟨hS', hread⟩ := hloop.returns a h' hrun
  refine ⟨hS', fun k => ?_⟩
  rw [hread]
  split
  · rfl
  · rename_i hk
    by_contra hsome
    obtain ⟨s, hs⟩ := Option.ne_none_iff_exists'.mp hsome
    have hholder := holder_of_stagedRelease hs
    exact hk (mem_map.mpr ⟨s, mem_pendingAttemptReleases.mpr (hholder ▸ hs), hholder⟩)

end Pass

/-! ## Convergence -/

/-- Passes that each crash after some number of calls. -/
def tornPasses (passes : List (Nat × Daemon)) (host : Host) : Host :=
  passes.foldl (fun h pass => (recoverStagedAttemptReleases pass.2).cut pass.1 h) host

/-- Passes run to their end. -/
def wholePasses (daemons : List Daemon) (host : Host) : Host :=
  daemons.foldl (fun h daemon => ((recoverStagedAttemptReleases daemon).run h).2) host

section Convergence

variable {base h h' : Host} {s : StagedAttemptRelease}

theorem tornPasses_stands (torn : List (Nat × Daemon))
    (hall : ∀ daemon ∈ torn.map Prod.snd, daemon.ReplaysAll base) (hS : Stands base h) :
    Stands base (tornPasses torn h) := by
  induction torn generalizing h with
  | nil => exact hS
  | cons pass _ ih =>
    rw [map_cons, forall_mem_cons] at hall
    exact ih hall.2 ((recoverStagedAttemptReleases_succeeds hall.1 hS).cuts pass.1)

theorem wholePasses_stands (last : Daemon) (more : List Daemon)
    (hall : ∀ daemon ∈ last :: more, daemon.ReplaysAll base) (hS : Stands base h) :
    Stands base (wholePasses (last :: more) h)
      ∧ ∀ k, (wholePasses (last :: more) h).db.stagedRelease k = none := by
  -- each pass ends with nothing pending, the last one too
  induction more generalizing last h with
  | nil =>
    have hpass := recoverStagedAttemptReleases_succeeds (hall last mem_cons_self) hS
    obtain ⟨_, h₁, hrun⟩ := hpass.goesThrough
    have hended : wholePasses [last] h = h₁ := congrArg Prod.snd hrun
    rw [hended]
    exact hpass.returns _ h₁ hrun
  | cons next _ ih =>
    rw [forall_mem_cons] at hall
    have hpass := recoverStagedAttemptReleases_succeeds hall.1 hS
    obtain ⟨_, h₁, hrun⟩ := hpass.goesThrough
    have hS₁ : Stands base ((recoverStagedAttemptReleases last).run h).2 := by
      rw [hrun]
      exact (hpass.returns _ h₁ hrun).1
    exact ih next hall.2 hS₁

/-- A release that is no longer pending is closed. -/
theorem Stands.closed (hS : Stands base h) (hs : base.Pending s)
    (hnone : h.db.stagedRelease s.row.holder = none) :
    Moved s.row (s.row.closed base.ledger.generation) base h := by
  rcases hS.place s hs with hmoved | hmoved | hmoved
  · cases (hnone.symm.trans (congrArg (·.2.2) (hmoved (.holder _) rfl))).trans hs
  · cases (hnone.symm.trans (congrArg (·.2.2) (hmoved (.holder _) rfl))).trans hs
  · exact hmoved

/-- Where the cells of `s` read the same, two hosts agree on all but the others
    pending. -/
theorem agreeBut_of_same {others : StagedAttemptRelease → Prop}
    (hothers : ∀ t, base.Pending t → t = s ∨ others t) (hagree : AgreeBut base.Pending base h)
    (hagree' : AgreeBut base.Pending base h')
    (hsame : ∀ c, s.row.Owns c → h'.read c = h.read c) : AgreeBut others h h' := by
  intro c hc
  by_cases hs : s.row.Owns c
  · exact hsame c hs
  have hnone : ∀ t, base.Pending t → ¬ t.row.Owns c := fun t ht =>
    (hothers t ht).elim (fun heq => heq ▸ hs) (hc t)
  exact (hagree' c hnone).trans (hagree c hnone).symm

/-- Journaling a release changes nothing that a replay asks for. -/
theorem Daemon.Replays.staged {daemon : Daemon} {host : Host} {row : ReleaseRow}
    {batchId : Option String} {staged : StateDb} (hstaged : host.db.Staged row batchId staged)
    (h : daemon.Replays host s) : daemon.Replays ⟨host.ledger, staged⟩ s := by
  obtain ⟨hrest, -⟩ := hstaged
  refine ⟨h.set, ?_, ?_, h.place⟩
  · rw [hrest]
    exact { h.projects with }
  · intro k worker hk hworker
    rw [hrest] at hworker
    exact h.gone k worker hk hworker

end Convergence

/-- Cut a release anywhere after its first call, let any number of startup
    passes crash as well, and make at least one whole pass.  When the daemons
    of these passes can replay it and whatever else was pending, nothing is
    pending afterwards and the host is, but for the other releases, that of the
    release that was not interrupted: its permit freed, its demand and worker
    rows moved, and no second permit gone. -/
theorem staged_release_converges (host : Host) (row : ReleaseRow) (batchId : Option String)
    (howns : OwnsPermit host.ledger row) (hvalid : host.db.Releasable row batchId) (now : UnixTime)
    (n : Nat) (torn : List (Nat × Daemon)) (last : Daemon) (more : List Daemon)
    (hheirs : ∀ daemon ∈ torn.map Prod.snd ++ last :: more,
      daemon.Replays host ⟨row, batchId, false⟩ ∧ daemon.ReplaysAll host) :
    let others := fun s => host.Pending s ∧ s.row.holder ≠ row.holder
    let full := (releaseWithProjection row batchId now).run host
    let ended := wholePasses (last :: more)
      (tornPasses torn ((releaseWithProjection row batchId now).cut (n + 1) host))
    full.1 = .ok true
      ∧ (∀ c, row.Owns c → ended.read c = full.2.read c)
      ∧ AgreeBut others full.2 ended
      ∧ (∀ k, ended.db.stagedRelease k = none)
      ∧ Moved row (row.closed host.ledger.generation) host ended
      ∧ full.2.ledger.permits.size + 1 = host.ledger.permits.size
      ∧ ((∀ s, ¬ others s) → ended.ledger.permits.size + 1 = host.ledger.permits.size) := by
  intro others full ended
  obtain ⟨staged, hstage, hstaged⟩ := stageAttemptReleaseInner_ok hvalid
  have hothers : ∀ s, (⟨host.ledger, staged⟩ : Host).Pending s →
      s = ⟨row, batchId, false⟩ ∨ others s := by
    intro s hs
    rw [Host.Pending, hstaged.pending] at hs
    split at hs
    · exact .inl (Option.some.inj hs).symm
    · rename_i hne
      exact .inr ⟨hs, hne⟩
  have hall : ∀ daemon ∈ torn.map Prod.snd ++ last :: more,
      daemon.ReplaysAll ⟨host.ledger, staged⟩ := by
    intro daemon hmem s hs
    obtain ⟨hself, hpending⟩ := hheirs daemon hmem
    rcases hothers s hs with rfl | hother
    · exact hself.staged hstaged
    · exact (hpending s hother.1).staged hstaged
  rw [forall_mem_append] at hall
  have hpending : (⟨host.ledger, staged⟩ : Host).Pending ⟨row, batchId, false⟩ :=
    (hstaged.pending _).trans (if_pos rfl)
  have hcomplete := complete_succeeds (hall.2 last mem_cons_self) (.refl _) hpending now
  -- whatever call of the sequence the crash falls after, from the first on
  have hcut : Stands ⟨host.ledger, staged⟩
      ((releaseWithProjection row batchId now).cut (n + 1) host) := by
    rw [releaseWithProjection, cut_callDb hstage]
    exact hcomplete.cuts n
  obtain ⟨hended, hcleared⟩ :=
    wholePasses_stands last more hall.2 (tornPasses_stands torn hall.1 hcut)
  have hprojects := (hall.2 last mem_cons_self _ hpending).projects
  obtain ⟨finished, hfinish, -⟩ :=
    finishAttemptRelease_ok _ hpending hprojects host.ledger.generation
  have hrun : (completeStagedAttemptRelease ⟨row, batchId, false⟩ now).run ⟨host.ledger, staged⟩
      = (.ok true, ⟨freed host.ledger row (i64OfU64 now.secs), finished⟩) :=
    completeStagedAttemptRelease_run (release_of_owns howns now) rfl hfinish
  have hfull : full = (.ok true, ⟨freed host.ledger row (i64OfU64 now.secs), finished⟩) :=
    (run_bind_of_ok (run_callDb hstage)).trans hrun
  obtain ⟨hfullStands, hfullRead⟩ := hcomplete.returns _ _ hrun
  have hclosed := hended.closed hpending (hcleared row.holder)
  have hfullClosed := hfullStands.closed hpending ((hfullRead _).trans (if_pos rfl))
  have hsame : ∀ c, row.Owns c → ended.read c = Host.read _ c := fun c hc =>
    (hclosed c hc).trans (hfullClosed c hc).symm
  have hagree := agreeBut_of_same hothers hfullStands.agree hended.agree hsame
  have hmoved : Moved row (row.closed host.ledger.generation) host ended := by
    intro c hc
    rw [hclosed c hc, hstaged.1]
    cases c with
    | holder | demand | worker => rfl
    | members | generation => exact hc.elim
  rw [hfull]
  refine ⟨rfl, hsame, hagree, hcleared, hmoved, size_freed howns _, fun halone => ?_⟩
  rw [← size_freed howns (i64OfU64 now.secs)]
  congr 1
  exact Table.size_eq_of_keys fun k =>
    congrArg (·.1.isSome) (hagree (.holder k) fun s hs => (halone s hs).elim)

/-- The release of a finished job, worker cleaned up. -/
def finishedJobRelease : ReleaseRow where
  holder := permitHolder 1 7
  scaleSetId := 1
  requestId := 7
  attemptToken := "t1"
  ledgerDemandState := .terminal
  nextDemandState := some .terminal
  workerOwnershipId := some "1/velnor-1-7"
  holder_eq := rfl
  token_nonempty := by decide
  ledger_check := rfl
  next_check := rfl

/-- The host it is released on; process 42 held the permit. -/
def finishedJobHost : Host where
  ledger := { PermitLedger.empty with
    permits := ⟨[PermitLedger.freshPermitRow (permitHolder 1 7) .scaleSet .cleaning 0 (some 42) "t1"
        permitTime], nodup_singleton _, nodup_singleton _⟩
    demands := ⟨[PermitLedger.empty.freshDemandRow (permitHolder 1 7) .scaleSet "" 1000 1000
        .granted], nodup_singleton _, nodup_singleton _⟩ }
  db := { StateDb.empty with
    demands := ⟨[⟨7, 1, 1, .acquired, none, 0, some "t1"⟩], nodup_singleton _, nodup_singleton _⟩
    workers := ⟨[⟨"1/velnor-1-7", "prov-op-1-7-1", some 7, "velnor-1-7", .ownedCleanup, 0,
        some "t1"⟩], nodup_singleton _, nodup_singleton _⟩ }

/-- The host after a crash that follows the staging. -/
def interruptedHost : Host :=
  (releaseWithProjection finishedJobRelease none permitTime).cut 1 finishedJobHost

theorem finishedJob_owns : OwnsPermit finishedJobHost.ledger finishedJobRelease := by
  have hpermit := Table.get?_of_mem (t := finishedJobHost.ledger.permits) (mem_singleton.mpr rfl)
  have hqueued := PermitLedger.queued_of_get?
    (Table.get?_of_mem (t := finishedJobHost.ledger.demands) (mem_singleton.mpr rfl))
  exact ⟨⟨_, hpermit, rfl, rfl⟩, ⟨.granted, hqueued, .inl rfl⟩⟩

theorem finishedJob_releasable : finishedJobHost.db.Releasable finishedJobRelease none := by
  have hdemand := Table.get?_of_mem (t := finishedJobHost.db.demands) (mem_singleton.mpr rfl)
  have hworker := Table.get?_of_mem (t := finishedJobHost.db.workers) (mem_singleton.mpr rfl)
  exact {
    demand := fun next hnext => by
      cases hnext
      exact ⟨_, demandOf_eq_some_iff.mpr ⟨hdemand, rfl⟩, rfl, .inr rfl⟩
    worker := fun id hid => by
      cases hid
      exact ⟨_, workerOf_eq_some_iff.mpr ⟨hworker, rfl⟩, rfl, rfl⟩
    batch := fun b hb => by cases hb
    workerNamed := by decide
    batchShape := fun hb => by cases hb
    noAcquire := rfl
    noRotation := not_mem_nil
    sameStage := fun existing hex => by cases hex
    sameBatch := fun existing hex => by cases hex }

/-- Cut right after staging; the first pass dies once the permit is freed, the
    second runs to the end. -/
theorem staged_release_converges_two_crashes :
    (wholePasses [soleDaemon 44] (tornPasses [(4, soleDaemon 43)]
        interruptedHost)).ledger.permits.size + 1 = finishedJobHost.ledger.permits.size := by
  have hnone : ∀ s, ¬ finishedJobHost.Pending s := fun s hs => by cases hs
  have hreplays (pid : UInt32) (hpid : 42 ≠ pid.toNat) :
      (soleDaemon pid).Replays finishedJobHost ⟨finishedJobRelease, none, false⟩ := {
    set := rfl
    projects := finishedJob_releasable.toProjects
    gone := fun _ _ _ _ _ => ⟨Int.one_ne_zero, rfl⟩
    place := .inl ⟨finishedJob_owns, _, 42, rfl, rfl, hpid, rfl⟩ }
  have hheirs : ∀ daemon ∈ [soleDaemon 43, soleDaemon 44],
      daemon.Replays finishedJobHost ⟨finishedJobRelease, none, false⟩
        ∧ daemon.ReplaysAll finishedJobHost := by
    intro daemon hmem
    rcases mem_pair.mp hmem with rfl | rfl
    · exact ⟨hreplays 43 (by decide), fun s hs => (hnone s hs).elim⟩
    · exact ⟨hreplays 44 (by decide), fun s hs => (hnone s hs).elim⟩
  have hconverges := staged_release_converges finishedJobHost finishedJobRelease none
    finishedJob_owns finishedJob_releasable permitTime 0 [(4, soleDaemon 43)]
    (soleDaemon 44) [] hheirs
  exact hconverges.2.2.2.2.2.2 fun s hs => hnone s hs.1

/-- A daemon that sees the pid of the dead process in use again. -/
def deceivedDaemon : Daemon := { soleDaemon 43 with pidAlive := (· = 42) }

/-- With the pid of the permit's owner in use again, no pass replays the
    release: the permit and the stage stay. -/
theorem staged_release_kept_by_reused_pid :
    OwnsPermit finishedJobHost.ledger finishedJobRelease
      ∧ finishedJobHost.db.Releasable finishedJobRelease none
      ∧ ∀ passes,
        let ended := wholePasses (replicate passes deceivedDaemon) interruptedHost
        (ended.ledger.permits.get? finishedJobRelease.holder).isSome = true
          ∧ (ended.db.stagedRelease finishedJobRelease.holder).isSome = true := by
  refine ⟨finishedJob_owns, finishedJob_releasable, fun passes => ?_⟩
  have hrefused : (recoverStagedAttemptReleases deceivedDaemon).run interruptedHost
      = (.error (.ownerAlive (permitHolder 1 7) 42), interruptedHost) := rfl
  have hkept : wholePasses (replicate passes deceivedDaemon) interruptedHost
      = interruptedHost := by
    induction passes with
    | zero => rfl
    | succ passes ih =>
      rw [replicate_succ, wholePasses, foldl_cons, hrefused]
      exact ih
  rw [hkept]
  exact ⟨rfl, rfl⟩

end Velnor.Scaleset
