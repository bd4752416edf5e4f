/-
  The reserving half of `acquire_pass` (scaleset/scale.rs), up to the batch
  that is the durable boundary before the network call: for each granted offer
  stage the token, acquire the permit under it and project it, then record the
  batch and drop the stages.

  A crash can fall between any two of these calls.  `acquirePass_cutSafe` says
  what it can leave: every stage still pending is one that recovery can
  resolve, and every offer without one is settled.
-/
import Velnor.Scaleset.Footprint

namespace Velnor.Scaleset

open Relational StagedAttemptAcquire Script List StateDb
open Velnor.Control (Holder Token PermitLedger PermitRow UnixTime AcquireAttemptOutcome Queued
  u32OfI64 u32OfI64_toNat)

/-! ## Reserving one permit -/

/-- What the lane-side ledger trait answers. -/
inductive AcquireOutcome where
  | acquired (attemptToken : Token)
  | alreadyHeld
  | full
  | staleGeneration
  | notConfigured
  deriving DecidableEq, Repr

def fromControlOutcome : AcquireAttemptOutcome → AcquireOutcome
  | .acquired attemptToken => .acquired attemptToken
  | .alreadyHeld => .alreadyHeld
  | .full | .deferred | .closed => .full
  | .staleGeneration => .staleGeneration
  | .notConfigured => .notConfigured

inductive ReserveOutcome where
  | reserved (attemptToken : Token)
  | alreadyHeld
  | capacityExhausted
  | notConfigured
  deriving DecidableEq, Repr

/-- What an attempt comes to; `none` when its generation was stale. -/
def AcquireOutcome.toReserve : AcquireOutcome → Option ReserveOutcome
  | .acquired attemptToken => some (.reserved attemptToken)
  | .alreadyHeld => some .alreadyHeld
  | .full => some .capacityExhausted
  | .notConfigured => some .notConfigured
  | .staleGeneration => none

def acquireWithAttemptToken (daemon : Daemon) (holder : Holder) (generation : Nat)
    (attemptToken : Token) (now : UnixTime) : HostScript AcquireOutcome := do
  let outcome ← callLedger fun ledger =>
    ledger.acquireScalesetAttemptWithToken holder .reserved generation (some daemon.pid.toNat)
      attemptToken now
  return fromControlOutcome outcome

/-- A stale generation is read again and retried once. -/
def reserveForOfferWithToken (daemon : Daemon) (requestId : Int) (holder : Holder)
    (generation : Nat) (attemptToken : Token) : HostScript (ReserveOutcome × Nat) := do
  let first ← acquireWithAttemptToken daemon holder generation attemptToken
    (daemon.clock requestId 0)
  match first.toReserve with
  | some outcome => return (outcome, generation)
  | none => do
    let fresh ← Script.query fun host => host.ledger.generation
    let second ← acquireWithAttemptToken daemon holder fresh attemptToken (daemon.clock requestId 1)
    match second.toReserve with
    | some outcome => return (outcome, fresh)
    | none => liftM (Except.error (LaneError.doubleStale fresh) : Except LaneError _)

/-! ## The pass -/

/-- One turn of the loop: the stage of the reserved permit, or `none` when the
    ledger has no more to give. -/
def reserveCandidate (daemon : Daemon) (generation : Nat) (candidate : Demand) :
    HostScript (Option StagedAttemptAcquire × Nat) := do
  let holder := permitHolder daemon.scaleSetId candidate.requestId
  let attemptToken := daemon.mint candidate.requestId
  -- the token is durable before the ledger can hold it
  let stage ← callDb fun db =>
    db.stageAttemptAcquire holder daemon.scaleSetId candidate.requestId
      candidate.permitAttemptToken attemptToken
  let (outcome, landed) ← reserveForOfferWithToken daemon candidate.requestId holder generation
    attemptToken
  match outcome with
  | .reserved acquiredToken => do
    liftM (refuseIf (acquiredToken ≠ attemptToken) (LaneError.ledgerReturnedAnotherToken holder))
    let _ ← callDb fun db => db.finishAttemptAcquire stage true
    return (some stage, landed)
  | .alreadyHeld => liftM (Except.error (LaneError.ledgerAlreadyHolds holder) : Except LaneError _)
  | .capacityExhausted | .notConfigured => do
    let _ ← callDb fun db => db.finishAttemptAcquire stage false
    return (none, landed)

/-- Reserve oldest-first; the first exhausted permit stops the take.  `taken`
    are the stages reserved so far; request, holder and token of each are what
    the batch will list. -/
def reserveCandidates (daemon : Daemon) : List Demand → Nat → List StagedAttemptAcquire →
    HostScript (List StagedAttemptAcquire × Nat)
  | [], generation, taken => return (taken, generation)
  | candidate :: rest, generation, taken => do
    let (stage, landed) ← reserveCandidate daemon generation candidate
    match stage with
    | some stage => reserveCandidates daemon rest landed (taken ++ [stage])
    | none => return (taken, landed)

def finishBatches : List StagedAttemptAcquire → HostScript Unit
  | [] => return ()
  | stage :: rest => do
    let _ ← callDb fun db => db.finishAttemptAcquireBatch stage
    finishBatches rest

/-- Reserve for the candidates, record the batch, drop the stages. -/
def acquirePass (daemon : Daemon) (candidates : List Demand) :
    HostScript (List StagedAttemptAcquire) := do
  let generation ← Script.query fun host => host.ledger.generation
  let (taken, landed) ← reserveCandidates daemon candidates generation []
  if taken.isEmpty then return []
  else do
    -- from here a permit is kept, before it would be rolled back
    let _ ← callDb fun db =>
      db.recordIntended daemon.batchId daemon.scaleSetId
        (taken.map StagedAttemptAcquire.requestId) (taken.map StagedAttemptAcquire.holder)
        (taken.map StagedAttemptAcquire.targetAttemptToken) landed
    finishBatches taken
    return taken

/-! ## Where a reservation leaves the request -/

variable {generation : Nat} {stage : StagedAttemptAcquire}

section Reserving

variable {old daemon : Daemon} {requests : List Request} {q : Request}

/-- What an answer says about the permit of the stage. -/
def AcquireOutcome.Place (daemon : Daemon) (stage : StagedAttemptAcquire) (fp : Footprint) :
    AcquireOutcome → Prop
  | .acquired token => token = stage.targetAttemptToken ∧ Held daemon stage fp
  | .alreadyHeld => False
  | .full | .staleGeneration | .notConfigured => Unheld stage fp

def ReserveOutcome.Place (daemon : Daemon) (stage : StagedAttemptAcquire) (fp : Footprint) :
    ReserveOutcome → Prop
  | .reserved token => token = stage.targetAttemptToken ∧ Held daemon stage fp
  | .alreadyHeld => False
  | .capacityExhausted | .notConfigured => Unheld stage fp

theorem AcquireOutcome.place_toReserve {fp : Footprint} {outcome : AcquireOutcome}
    {reserved : ReserveOutcome} (h : outcome.Place daemon stage fp)
    (hreserve : outcome.toReserve = some reserved) : reserved.Place daemon stage fp := by
  cases outcome with
  | staleGeneration => cases hreserve
  | acquired token | alreadyHeld | full | notConfigured =>
    cases hreserve
    exact h

variable {host : Host}

/-- The place an acquire leaves a request without a permit in, by its answer. -/
theorem place_of_effect {ledger : PermitLedger} {now : UnixTime}
    {out : Except Control.LedgerError AcquireAttemptOutcome}
    (heffect : PermitLedger.AcquireEffect host.ledger
      (PermitLedger.freshPermitRow q.holder .scaleSet .reserved generation (some old.pid.toNat)
      stage.targetAttemptToken now) out ledger)
    (hdead : daemon.Outlives old.pid.toNat) (hunheld : Unheld stage (host.footprint q)) :
    (Held daemon stage (Host.footprint { host with ledger } q)
        ∧ out = .ok (.acquired stage.targetAttemptToken))
      ∨ (Unheld stage (Host.footprint { host with ledger } q) ∧ out ≠ .ok .alreadyHeld
        ∧ ∀ token, out ≠ .ok (.acquired token)) := by
  rcases heffect.free hunheld.permit with ⟨hout, hrow, hqueued⟩ | ⟨hnone, hnot, hnever⟩
  · have hpid : (some (Int.ofNat old.pid.toNat)).bind u32OfI64 = some old.pid.toNat := by
      rw [Option.bind_some]
      exact u32OfI64_toNat old.pid
    refine .inl ⟨⟨⟨_, old.pid.toNat, hrow, rfl, rfl, rfl, hpid, hdead⟩,
      hqueued, fun batch hbatch => ?_⟩, hout⟩
    cases hunheld.batch.symm.trans hbatch
  · exact .inr ⟨⟨hnone, hunheld.batch, hunheld.token⟩, hnot, hnever⟩

section

variable (hsafe : CutSafe daemon requests host) (hdead : daemon.Outlives old.pid.toNat)
  (hstage : (host.footprint q).stage = some stage) (hunheld : Unheld stage (host.footprint q))
include hsafe hdead hstage hunheld

/-- One ledger call for a staged request without a permit: it is granted under
    the staged token, or the request stays without one. -/
theorem acquireWithAttemptToken_safe (generation : Nat) (now : UnixTime) :
    Script.Safe (CutSafe daemon requests)
      (fun outcome host' => OnlyAt q host host' ∧ (host'.footprint q).stage = some stage
        ∧ outcome.Place daemon stage (host'.footprint q))
      (acquireWithAttemptToken old q.holder generation stage.targetAttemptToken now) host := by
  have hrec := (hsafe q).pending stage hstage
  have heffect := PermitLedger.acquireScalesetAttemptWithToken_effect host.ledger q.holder
    .reserved generation (some old.pid.toNat) stage.targetAttemptToken now
  generalize hcall : host.ledger.acquireScalesetAttemptWithToken q.holder .reserved generation
    (some old.pid.toNat) stage.targetAttemptToken now = answer at heffect
  obtain ⟨out, ledger⟩ := answer
  have honly : OnlyAt q host { host with ledger } :=
    WritesAt.onlyAt { permit := heffect.permit_ne, queued := heffect.queued_ne }
  have hplace := place_of_effect heffect hdead hunheld
  -- the stage stays recoverable, whichever way the ledger answered
  have hsafe' : CutSafe daemon requests { host with ledger } := by
    refine hsafe.move honly (Recoverable.sound hstage ?_)
    refine { hrec with place := ?_ }
    rcases hplace with ⟨hheld, -⟩ | ⟨hfree, -⟩
    · exact .inr hheld
    · exact .inl hfree
  refine safe_bind (Q := fun outcome host' => host' = { host with ledger }
    ∧ out = .ok outcome) (safe_callLedger hsafe ?_ ?_) ?_
  · rw [hcall]
    exact hsafe'
  · intro _ hok
    rw [hcall] at hok ⊢
    exact ⟨rfl, hok⟩
  · rintro outcome _ hI ⟨rfl, rfl⟩
    refine safe_pure hI ⟨honly, hstage, ?_⟩
    rcases hplace with ⟨hheld, hout⟩ | ⟨hfree, hnot, hnever⟩
    · cases hout
      exact ⟨rfl, hheld⟩
    cases outcome with
    | acquired token => exact absurd rfl (hnever token)
    | alreadyHeld => exact absurd rfl hnot
    | full | deferred | closed | staleGeneration | notConfigured => exact hfree

theorem reserveForOfferWithToken_safe (requestId : Int) (generation : Nat) :
    Script.Safe (CutSafe daemon requests)
      (fun result host' => OnlyAt q host host' ∧ (host'.footprint q).stage = some stage
        ∧ result.1.Place daemon stage (host'.footprint q))
      (reserveForOfferWithToken old requestId q.holder generation stage.targetAttemptToken)
      host := by
  refine safe_bind (acquireWithAttemptToken_safe hsafe hdead hstage hunheld generation _) ?_
  rintro first host₁ hI₁ ⟨honly₁, hstage₁, hplace₁⟩
  cases hfirst : first.toReserve with
  | some =>
    exact safe_pure hI₁ ⟨honly₁, hstage₁, AcquireOutcome.place_toReserve hplace₁ hfirst⟩
  | none =>
    -- a stale caller has changed nothing and asks again
    have hunheld₁ : Unheld stage (host₁.footprint q) := by
      cases first with
      | staleGeneration => exact hplace₁
      | acquired token | alreadyHeld | full | notConfigured => cases hfirst
    apply safe_query_bind hI₁
    refine safe_bind
      (acquireWithAttemptToken_safe hI₁ hdead hstage₁ hunheld₁ host₁.ledger.generation _) ?_
    rintro second _ hI₂ ⟨honly₂, hstage₂, hplace₂⟩
    cases hsecond : second.toReserve with
    | some =>
      exact safe_pure hI₂ ⟨honly₁.trans honly₂, hstage₂,
        AcquireOutcome.place_toReserve hplace₂ hsecond⟩
    | none => exact safe_error hI₂

end

end Reserving

/-! ## One candidate -/

section Candidate

variable {old daemon : Daemon} {requests : List Request} {host : Host}

/-- A granted offer that holds no permit and that nothing was done for yet. -/
structure Fresh (daemon : Daemon) (q : Request) (fp : Footprint) : Prop where
  permit : fp.permit = none
  batch : fp.batch = none
  demand : ∃ d, fp.demand = some d ∧ d.state = .granted
  worker : fp.worker = none
  intent : fp.intent = none
  bare : daemon.Bare q.requestId

/-- A stage whose permit is reserved and whose token is projected. -/
structure Taken (stage : StagedAttemptAcquire) (fp : Footprint) : Prop where
  journaled : fp.stage = some stage
  permit : fp.permit ≠ none
  token : ∃ d, fp.demand = some d ∧ d.permitAttemptToken = some stage.targetAttemptToken

/-- Staging a fresh offer leaves it recoverable, without a permit. -/
theorem stage_safe (hset : old.scaleSetId = daemon.scaleSetId)
    (hsafe : CutSafe daemon requests host) {requestId : Int}
    (hfresh : Fresh daemon ⟨old.scaleSetId, requestId⟩ (host.footprint ⟨old.scaleSetId, requestId⟩))
    (previous : Option Token) (target : Token) :
    Script.Safe (CutSafe daemon requests)
      (fun stage host' => stage.request = ⟨old.scaleSetId, requestId⟩
        ∧ stage.targetAttemptToken = target ∧ OnlyAt stage.request host host'
        ∧ (host'.footprint stage.request).stage = some stage
        ∧ Unheld stage (host'.footprint stage.request))
      (callDb fun db => db.stageAttemptAcquire (permitHolder old.scaleSetId requestId)
        old.scaleSetId requestId previous target) host := by
  apply safe_transact hsafe
  intro stage db' hbody
  obtain ⟨hstageSet, rfl, rfl, hstaged⟩ := stageAttemptAcquire_ok (transact_of_ok hbody)
  have hrequest : stage.request = ⟨old.scaleSetId, stage.requestId⟩ := by
    rw [request, hstageSet]
  rw [← hrequest] at hfresh ⊢
  obtain ⟨acquires, rfl⟩ : ∃ acquires, db' = { host.db with acquires } := ⟨_, hstaged.rest⟩
  have hread := hstaged.acquire
  have honly : OnlyAt stage.request host { host with db := { host.db with acquires } } := by
    refine WritesAt.onlyAt { stage := fun k hk => ?_ }
    rw [stage.holder_request] at hk
    exact (hread k).trans (if_neg hk)
  have hpending : acquires.get? stage.request.holder = some stage :=
    (hread _).trans (if_pos stage.holder_request)
  obtain ⟨d, hd, hgranted, htoken⟩ := hstaged.demand
  -- a fresh offer has no permit, and the stage recorded its token as previous
  have hunheld : Unheld stage
      (Host.footprint { host with db := { host.db with acquires } } stage.request) := by
    refine ⟨hfresh.permit, hfresh.batch, fun d' hd' => ?_⟩
    cases hd.symm.trans hd'
    exact htoken
  refine ⟨hsafe.move honly (Recoverable.sound hpending ?_),
    rfl, rfl, honly, hpending, hunheld⟩
  refine ⟨hstageSet.trans hset, ⟨d, hd, hgranted, .inl htoken⟩, hfresh.worker, hfresh.intent,
    hfresh.bare, ?_, ?_, .inl hunheld⟩
  · have hnone := hstaged.noRelease
    rwa [← stage.holder_request] at hnone
  · have hnone := hstaged.noReleaseBatch
    rwa [← stage.holder_request] at hnone

section

variable (hsafe : CutSafe daemon requests host)
  (hstage : (host.footprint stage.request).stage = some stage)
include hsafe hstage

/-- The permit was reserved: the token is projected and the stage stays. -/
theorem finishAcquired_safe (hheld : Held daemon stage (host.footprint stage.request)) :
    Script.Safe (CutSafe daemon requests)
      (fun _ host' => OnlyAt stage.request host host'
        ∧ Taken stage (host'.footprint stage.request))
      (callDb fun db => db.finishAttemptAcquire stage true) host := by
  have hrec := (hsafe _).pending stage hstage
  obtain ⟨_, hd, hgranted, htoken⟩ := hrec.demand
  obtain ⟨_, hfinish, hread⟩ := finishAttemptAcquire_acquired
    (pending_of_footprint hstage hd hgranted) htoken
  obtain ⟨honly, hfp⟩ := footprint_project host hd hread
  have hrow : (host.footprint stage.request).permit ≠ none := by
    obtain ⟨_, _, hrow, -⟩ := hheld.permit
    rw [hrow]
    nofun
  refine safe_callDb_of_ok hfinish hsafe (hsafe.move honly ?_) ⟨honly, ?_⟩
  · rw [hfp]
    refine Recoverable.sound hstage ?_
    exact { hrec with
      demand := ⟨_, rfl, hgranted, .inr rfl⟩
      place := .inr { hheld with } }
  · rw [hfp]
    exact ⟨hstage, hrow, _, rfl, rfl⟩

/-- There was no permit to reserve: the stage goes and the offer is free. -/
theorem finishAbsent_safe (hunheld : Unheld stage (host.footprint stage.request)) :
    Script.Safe (CutSafe daemon requests) (fun _ host' => OnlyAt stage.request host host')
      (callDb fun db => db.finishAttemptAcquire stage false) host := by
  obtain ⟨d, hd, hgranted, -⟩ := ((hsafe _).pending stage hstage).demand
  obtain ⟨_, hfinish, hread⟩ := finishAttemptAcquire_absent
    (pending_of_footprint hstage hd hgranted) (hunheld.token d hd) hunheld.batch
  obtain ⟨honly, hfp⟩ := footprint_clear host hread
  refine safe_callDb_of_ok hfinish hsafe (hsafe.move honly ?_) honly
  rw [hfp]
  exact Settled.sound rfl (.inl ⟨hunheld.permit, hunheld.batch, d, hd, .inl hgranted⟩)

end

/-- One turn of the loop. -/
theorem reserveCandidate_safe (hset : old.scaleSetId = daemon.scaleSetId)
    (hdead : daemon.Outlives old.pid.toNat) (hsafe : CutSafe daemon requests host)
    (candidate : Demand)
    (hfresh : Fresh daemon ⟨old.scaleSetId, candidate.requestId⟩
      (host.footprint ⟨old.scaleSetId, candidate.requestId⟩)) (generation : Nat) :
    Script.Safe (CutSafe daemon requests)
      (fun result host' => OnlyAt ⟨old.scaleSetId, candidate.requestId⟩ host host'
        ∧ ∀ stage, result.1 = some stage →
          stage.request = ⟨old.scaleSetId, candidate.requestId⟩
            ∧ Taken stage (host'.footprint stage.request))
      (reserveCandidate old generation candidate) host := by
  refine safe_bind (stage_safe hset hsafe hfresh candidate.permitAttemptToken
    (old.mint candidate.requestId)) ?_
  rintro stage _ hI₁ ⟨hrequest, htarget, honly₁, hstage₁, hunheld₁⟩
  have hholder : permitHolder old.scaleSetId candidate.requestId = stage.request.holder := by
    rw [hrequest]
    rfl
  rw [hholder, ← htarget]
  refine safe_bind
    (reserveForOfferWithToken_safe hI₁ hdead hstage₁ hunheld₁ candidate.requestId generation) ?_
  rintro ⟨outcome, _⟩ host₂ hI₂ ⟨honly₂, hstage₂, hplace⟩
  have honly : OnlyAt stage.request host host₂ := honly₁.trans honly₂
  cases outcome with
  | reserved =>
    apply safe_lift_bind hI₂
    intro _ _
    refine safe_bind (finishAcquired_safe hI₂ hstage₂ hplace.2) ?_
    rintro _ _ hI₃ ⟨honly₃, htaken⟩
    refine safe_pure hI₃ ⟨?_, ?_⟩
    · rw [← hrequest]
      exact honly.trans honly₃
    · intro _ heq
      cases heq
      exact ⟨hrequest, htaken⟩
  -- the request had no permit
  | alreadyHeld => exact absurd hplace not_false
  | capacityExhausted | notConfigured =>
    refine safe_bind (finishAbsent_safe hI₂ hstage₂ hplace) ?_
    intro _ _ hI₃ honly₃
    refine safe_pure hI₃ ⟨?_, ?_⟩
    · rw [← hrequest]
      exact honly.trans honly₃
    · intro _ heq
      cases heq

end Candidate

/-! ## The loop and the batch -/

section Pass

variable {old daemon : Daemon} {requests : List Request} {host : Host}

/-- The stages taken so far: one for each of their requests. -/
structure AllTaken (scaleSetId : Int) (taken : List StagedAttemptAcquire) (host : Host) : Prop where
  set : ∀ stage ∈ taken, stage.scaleSetId = scaleSetId
  each : ∀ stage ∈ taken, Taken stage (host.footprint stage.request)
  distinct : (taken.map StagedAttemptAcquire.requestId).Nodup

theorem request_ne {q q' : Request} (h : q'.requestId ≠ q.requestId) : q' ≠ q := by
  rintro rfl
  exact h rfl

variable {scaleSetId : Int} {taken : List StagedAttemptAcquire}

/-- Reserving for another request leaves the taken stages taken. -/
theorem AllTaken.frame {host' : Host} {q : Request} (h : AllTaken scaleSetId taken host)
    (honly : OnlyAt q host host') (hother : q.requestId ∉ taken.map requestId) :
    AllTaken scaleSetId taken host' where
  set := h.set
  distinct := h.distinct
  each stage hmem := by
    have hne : stage.requestId ≠ q.requestId := by
      intro heq
      exact hother (mem_map.mpr ⟨stage, hmem, heq⟩)
    rw [honly _ (request_ne hne)]
    exact h.each stage hmem

/-- One more request, whose permit the pass has just taken. -/
theorem AllTaken.snoc {host : Host} (h : AllTaken scaleSetId taken host)
    (hset : stage.scaleSetId = scaleSetId) (hstage : Taken stage (host.footprint stage.request))
    (hnew : stage.requestId ∉ taken.map requestId) :
    AllTaken scaleSetId (taken ++ [stage]) host where
  set := forall_mem_append.mpr ⟨h.set, forall_mem_singleton.mpr hset⟩
  each := forall_mem_append.mpr ⟨h.each, forall_mem_singleton.mpr hstage⟩
  distinct := by
    rw [map_append, nodup_append]
    refine ⟨h.distinct, nodup_singleton _, ?_⟩
    intro _ ha _ hb hab
    rw [map_singleton, mem_singleton] at hb
    rw [hab, hb] at ha
    exact hnew ha

theorem reserveCandidates_safe (hset : old.scaleSetId = daemon.scaleSetId)
    (hdead : daemon.Outlives old.pid.toNat) (candidates : List Demand)
    (hsafe : CutSafe daemon requests host) (generation : Nat)
    (htaken : AllTaken old.scaleSetId taken host)
    (hfresh : ∀ c ∈ candidates, Fresh daemon ⟨old.scaleSetId, c.requestId⟩
      (host.footprint ⟨old.scaleSetId, c.requestId⟩))
    (hdistinct : (candidates.map Demand.requestId).Nodup)
    (hnew : ∀ c ∈ candidates, c.requestId ∉ taken.map requestId) :
    Script.Safe (CutSafe daemon requests)
      (fun result host' => AllTaken old.scaleSetId result.1 host')
      (reserveCandidates old candidates generation taken) host := by
  -- the stages taken so far are the invariant of the loop
  induction candidates generalizing host generation taken with
  | nil => exact safe_pure hsafe htaken
  | cons c _ ih =>
    obtain ⟨hc, hrest⟩ := nodup_cons.mp hdistinct
    refine safe_bind (reserveCandidate_safe hset hdead hsafe c
      (hfresh c mem_cons_self) generation) ?_
    rintro ⟨result, landed⟩ _ hI₁ ⟨honly, hresult⟩
    have htaken₁ := htaken.frame honly (hnew c mem_cons_self)
    cases result with
    | none => exact safe_pure hI₁ htaken₁
    | some stage =>
      obtain ⟨hrequest, hstage⟩ := hresult stage rfl
      have hset' : stage.scaleSetId = old.scaleSetId := congrArg Request.scaleSetId hrequest
      have hid : stage.requestId = c.requestId := congrArg Request.requestId hrequest
      have htaken₂ := htaken₁.snoc hset' hstage (by
        rw [hid]
        exact hnew c mem_cons_self)
      refine ih hI₁ landed htaken₂ (fun c' hc' => ?_) hrest fun c' hc' => ?_
      · have hne : c'.requestId ≠ c.requestId := by
          intro heq
          exact hc (mem_map.mpr ⟨c', hc', heq⟩)
        rw [honly _ (request_ne hne)]
        exact hfresh c' (mem_cons_of_mem c hc')
      · rw [map_append, mem_append, map_singleton, mem_singleton, hid]
        rintro (hmem | heq)
        · exact hnew c' (mem_cons_of_mem c hc') hmem
        · exact hc (mem_map.mpr ⟨c', hc', heq⟩)

/-- Recording the batch shows in the footprints of its members and nowhere
    else. -/
theorem footprint_recorded {batchId : String} {batches : BatchTable}
    (hset : ∀ stage ∈ taken, stage.scaleSetId = scaleSetId)
    (hins : host.db.batches.insert? (intendedBatch batchId scaleSetId taken generation) =
      some batches)
    (q : Request) : Host.footprint { host with db := { host.db with batches } } q = host.footprint q
      ∨ ∃ stage ∈ taken, stage.request = q
        ∧ Host.footprint { host with db := { host.db with batches } } q
          = { host.footprint q with
              batch := some (intendedBatch batchId scaleSetId taken generation) } := by
  rcases batchOf_insert hins rfl q.scaleSetId q.requestId with hbatch | ⟨hmember, hbatch⟩
  · left
    simp only [Host.footprint, hbatch]
    rfl
  · right
    have hmember : scaleSetId = q.scaleSetId ∧ q.requestId ∈ taken.map requestId := hmember
    obtain ⟨stage, hstage, hid⟩ := mem_map.mp hmember.2
    refine ⟨stage, hstage, ?_, ?_⟩
    · rw [request, hset stage hstage, hmember.1, hid]
    · simp only [Host.footprint, hbatch]
      rfl

theorem recordIntended_safe (hsafe : CutSafe daemon requests host)
    (htaken : AllTaken old.scaleSetId taken host) (batchId : String) (generation : Nat) :
    Script.Safe (CutSafe daemon requests) (fun _ host' => AllTaken old.scaleSetId taken host')
      (callDb fun db => db.recordIntended batchId old.scaleSetId
        (taken.map requestId) (taken.map holder)
        (taken.map targetAttemptToken) generation) host := by
  rcases recordIntended_cases host.db batchId old.scaleSetId taken generation with
    hsame | ⟨batches, hins, hafter⟩
  · apply safe_callDb hsafe
    · rw [hsame]
      exact hsafe
    · intro _ _
      rw [hsame]
      exact htaken
  · have hfp := footprint_recorded htaken.set hins
    apply safe_callDb hsafe
    · rw [hafter]
      intro q
      rcases hfp q with hfp | ⟨stage, hmem, rfl, hfp⟩
      · rw [hfp]
        exact hsafe q
      -- a member: its permit is held, and the batch names its token
      have hjournaled := (htaken.each stage hmem).journaled
      have hrec := (hsafe _).pending stage hjournaled
      have hheld : Held daemon stage (host.footprint stage.request) := by
        rcases hrec.place with hunheld | hheld
        · exact absurd hunheld.permit (htaken.each stage hmem).permit
        · exact hheld
      rw [hfp]
      refine Recoverable.sound hjournaled ?_
      refine { hrec with place := .inr { hheld with batch := fun batch hbatch => ?_ } }
      cases hbatch
      exact containsAttempt_intendedBatch htaken.distinct hmem
    · intro _ _
      rw [hafter]
      refine ⟨htaken.set, fun stage hmem => ?_, htaken.distinct⟩
      have hstage := htaken.each stage hmem
      rcases hfp stage.request with hfp | ⟨-, -, -, hfp⟩
      · rw [hfp]
        exact hstage
      · rw [hfp]
        exact { hstage with }

/-- Dropping the stage of a batch member: the permit, the demand row and the
    batch agree on the token. -/
theorem finishBatch_safe (hsafe : CutSafe daemon requests host)
    (hstage : Taken stage (host.footprint stage.request)) :
    Script.Safe (CutSafe daemon requests) (fun _ host' => OnlyAt stage.request host host')
      (callDb fun db => db.finishAttemptAcquireBatch stage) host := by
  apply safe_transact hsafe
  intro answer db' hbody
  have hcall : host.db.finishAttemptAcquireBatch stage = (.ok answer, db') := transact_of_ok hbody
  obtain ⟨batch, hbatch⟩ := Option.ne_none_iff_exists'.mp
    (batchOf_of_finishAttemptAcquireBatch hcall)
  have hrec := (hsafe _).pending stage hstage.journaled
  rcases hrec.place with hunheld | hheld
  · exact absurd hunheld.permit hstage.permit
  have hcontains := hheld.batch batch hbatch
  obtain ⟨d, hd, hgranted, -⟩ := hrec.demand
  obtain ⟨_, hd', htoken⟩ := hstage.token
  cases hd.symm.trans hd'
  obtain ⟨_, hfinish, hread⟩ := finishAttemptAcquireBatch_ok
    (pending_of_footprint hstage.journaled hd hgranted) htoken
    (by rw [acquireBatchContainsAttempt, hbatch]; exact hcontains)
  obtain ⟨honly, hfp⟩ := footprint_clear host hread
  obtain rfl := (Prod.mk.inj (hcall.symm.trans hfinish)).2
  refine ⟨hsafe.move honly ?_, honly⟩
  rw [hfp]
  obtain ⟨row, _, hrow, -, -, hown, -⟩ := hheld.permit
  refine Settled.sound rfl (.inr ⟨row, d, batch, hrow, hd, hbatch, ?_, ?_⟩)
  · rw [htoken, hown]
  · rw [hown]
    exact (containsAttempt_eq_ok hcontains).2

theorem finishBatches_safe (stages : List StagedAttemptAcquire)
    (hsafe : CutSafe daemon requests host)
    (hstages : ∀ stage ∈ stages, Taken stage (host.footprint stage.request))
    (hdistinct : (stages.map requestId).Nodup) :
    Script.Safe (CutSafe daemon requests) (fun _ _ => True) (finishBatches stages) host := by
  induction stages generalizing host with
  | nil => exact safe_pure hsafe trivial
  | cons stage _ ih =>
    obtain ⟨hstage, hrest⟩ := nodup_cons.mp hdistinct
    refine safe_bind (finishBatch_safe hsafe (hstages stage mem_cons_self)) ?_
    intro _ _ hI₁ honly
    refine ih hI₁ (fun other hother => ?_) hrest
    have hne : other.requestId ≠ stage.requestId := by
      intro heq
      exact hstage (mem_map.mpr ⟨other, hother, heq⟩)
    rw [honly other.request (request_ne hne)]
    exact hstages other (mem_cons_of_mem stage hother)

/-- Wherever the pass is cut, every pending stage is recoverable and every
    candidate without one is settled. -/
theorem acquirePass_cutSafe (hset : old.scaleSetId = daemon.scaleSetId)
    (hdead : daemon.Outlives old.pid.toNat) {candidates : List Demand}
    (hsafe : CutSafe daemon requests host)
    (hfresh : ∀ c ∈ candidates, Fresh daemon ⟨old.scaleSetId, c.requestId⟩
      (host.footprint ⟨old.scaleSetId, c.requestId⟩))
    (hdistinct : (candidates.map Demand.requestId).Nodup) (n : Nat) :
    CutSafe daemon requests ((acquirePass old candidates).cut n host) := by
  suffices h : Script.Safe (CutSafe daemon requests) (fun _ _ => True)
      (acquirePass old candidates) host from h.cuts n
  apply safe_query_bind hsafe
  refine safe_bind (reserveCandidates_safe hset hdead candidates hsafe
    host.ledger.generation ⟨nofun, nofun, nodup_nil⟩ hfresh hdistinct fun _ _ => not_mem_nil) ?_
  rintro ⟨taken, landed⟩ _ hI₁ htaken
  dsimp only
  by_cases hempty : taken.isEmpty = true
  · rw [if_pos hempty]
    exact safe_pure hI₁ trivial
  rw [if_neg hempty]
  refine safe_bind (recordIntended_safe hI₁ htaken old.batchId landed) ?_
  intro _ _ hI₂ htaken₂
  refine safe_bind (finishBatches_safe taken hI₂ htaken₂.each htaken₂.distinct) ?_
  intro _ _ hI₃ _
  exact safe_pure hI₃ trivial

end Pass

end Velnor.Scaleset
