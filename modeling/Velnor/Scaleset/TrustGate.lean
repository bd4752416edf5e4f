/-
  The trust gate of the demand store (demand.rs): offers, the reset of stale
  grants, and the pass that grants the oldest eligible rows.  The gate sits in
  the pass and reads the stored columns, so a row is granted by no other way in
  than through it, and the pass goes through the rows by age.
-/
import Velnor.Scaleset.StateDb
import Velnor.Trust.TrustClass

namespace Velnor.Scaleset

open Relational Text List
open Velnor.Control (Token i64OfU64)

/-! ## The gate -/

/-- The columns of an offer that the gate reads. -/
structure OfferProbe where
  eventName : Str
  ownerName : Str
  repositoryName : Str
  deriving DecidableEq, Repr

inductive OfferTrust where
  | trusted
  | unknown (reason : String)
  deriving DecidableEq, Repr

/-- `classify_probe`; the tests of the event repeat those of `trust_class.rs`. -/
def classifyProbe (probe : OfferProbe) : OfferTrust :=
  match Trust.wellFormedEvent probe.eventName with
  | none => .unknown "event-unparseable"
  | some event =>
    if trim probe.ownerName = [] ∨ trim probe.repositoryName = [] then .unknown "repo-missing"
    else if Trust.isPullRequestEvent event || Trust.isWorkflowRunEvent event then
      .unknown "trust-inputs-missing"
    else .trusted

/-- A plain event of a named repository. -/
structure OfferProbe.Plain (probe : OfferProbe) : Prop where
  named : trim probe.eventName ≠ []
  characters : ∀ c ∈ trim probe.eventName, c.isAlphanum = true ∨ c = '_'
  notPullRequest : ¬ "pull_request" <+: toAsciiLowercase (trim probe.eventName)
  notWorkflowRun : toAsciiLowercase (trim probe.eventName) ≠ "workflow_run"
  owner : trim probe.ownerName ≠ []
  repository : trim probe.repositoryName ≠ []

theorem isPullRequestEvent_of_pull {event : Str}
    (h : "pull_request" <+: toAsciiLowercase event) :
    Trust.isPullRequestEvent event = true := by
  have hlength := h.length_le
  have htake := prefix_iff_eq_take.mp h
  rw [toAsciiLowercase, length_map] at hlength
  rw [Trust.isPullRequestEvent, Bool.and_eq_true, decide_eq_true_eq, eqIgnoreAsciiCase_iff,
    toAsciiLowercase, map_take]
  exact ⟨hlength, htake.symm⟩

theorem plain_of_trusted {probe : OfferProbe} (h : classifyProbe probe = .trusted) :
    probe.Plain := by
  rw [classifyProbe, Trust.wellFormedEvent] at h
  split_ifs at h with hevent
  rw [not_or, not_not, all_eq_true] at hevent
  dsimp only at h
  split_ifs at h
  rename_i hnames hkind
  rw [not_or] at hnames
  rw [Bool.or_eq_true, not_or] at hkind
  refine ⟨hevent.1, fun c hc => by simpa using hevent.2 c hc, fun hprefix => ?_, fun hrun => ?_,
    hnames.1, hnames.2⟩
  · exact hkind.1 (isPullRequestEvent_of_pull hprefix)
  · exact hkind.2 (eqIgnoreAsciiCase_iff.mpr hrun)

/-! ## The store -/

/-- One `scaleset_demand` row with the columns of its offer. -/
structure OfferedDemand extends Demand where
  firstSeenAt : String
  probe : OfferProbe
  deriving DecidableEq

abbrev OfferTable := Table OfferedDemand (fun row => row.requestId) (fun row => row.sequence)

/-- `ORDER BY first_seen_at, sequence`. -/
def OfferedDemand.age (row : OfferedDemand) : String ×ₗ Int := toLex (row.firstSeenAt, row.sequence)

/-- What a job message says about its request. -/
structure JobMessage where
  runnerRequestId : Int
  jobId : Str
  workflowRunId : Int
  probe : OfferProbe

/-- `resolve_job_request_id`, with the hash of the crate. -/
def resolveJobRequestId (stableI64 : Str → Int) (base : JobMessage) : Int :=
  if base.runnerRequestId ≠ 0 then base.runnerRequestId
  else if base.jobId ≠ [] then
    if stableI64 base.jobId ≠ 0 then stableI64 base.jobId else 1
  else if base.workflowRunId ≠ 0 then base.workflowRunId
  else 1

/-- `SubmitOutcome`. -/
inductive SubmitOutcome where
  | inserted (sequence : Int)
  | redelivered (state : DemandState)
  | reofferedTerminal
  deriving DecidableEq, Repr

namespace OfferTable

variable (db : OfferTable) (scaleSetId : Int) (generation : Nat)

/-- `submit_offer`: a redelivery finds its row and writes nothing. -/
def submitOffer (stableI64 : Str → Int) (offer : JobMessage) (now : String) :
    SubmitOutcome × OfferTable :=
  let requestId := resolveJobRequestId stableI64 offer
  match db.get? requestId with
  | some existing =>
    (if existing.state = .terminal then .reofferedTerminal else .redelivered existing.state, db)
  | none =>
    let sequence := (db.rows.map fun row => row.sequence).max?.getD 0 + 1
    let row (state : DemandState) (declineReason : Option String) : OfferedDemand :=
      { requestId, scaleSetId, sequence, state, declineReason
        generation := i64OfU64 generation
        permitAttemptToken := none
        firstSeenAt := now
        probe := offer.probe }
    -- `INSERT OR IGNORE`
    match db.insert? (match classifyProbe offer.probe with
        | .trusted => row .eligible none
        | .unknown reason => row .observed (some reason)) with
    | some db => (.inserted sequence, db)
    | none => (.redelivered .observed, db)

/-- The statement of `set_state` and `set_state_owned`: the row must have the
    token the caller has read. -/
def assign (requestId : Int) (token : Option Token) (target : DemandState × Option String) :
    Option OfferTable :=
  db.updateOne? requestId (fun row => row.permitAttemptToken = token)
    (fun row => { row with
      state := target.1
      declineReason := target.2
      generation := i64OfU64 generation })
    (fun _ => ⟨rfl, rfl⟩)

/-- `set_state`. -/
def setState (requestId : Int) (target : DemandState × Option String) :
    Except StoreError OfferTable :=
  match db.assign generation requestId none target with
  | some db => .ok db
  | none => .error (if (db.get? requestId).isSome then .demandNeedsOwner requestId
      else .demandHasNoRow requestId)

/-- `set_state_owned`. -/
def setStateOwned (requestId : Int) (target : DemandState × Option String) (token : Token) :
    Except StoreError OfferTable :=
  if token = "" then .error .demandTokenEmpty
  else
    match db.assign generation requestId (some token) target with
    | some db => .ok db
    | none => .error (.demandOfAnotherAttempt requestId)

/-- How the two loops write a row they have read. -/
def move (row : OfferedDemand) (target : DemandState × Option String) :
    Except StoreError OfferTable :=
  match row.permitAttemptToken with
  | some token => db.setStateOwned generation row.requestId target token
  | none => db.setState generation row.requestId target

/-- One statement for each row, until one fails; with the rows that were moved. -/
def moveAll (target : OfferedDemand → DemandState × Option String) :
    List OfferedDemand → OfferTable → Except StoreError Unit × List OfferedDemand × OfferTable
  | [], db => (.ok (), [], db)
  | row :: rows, db =>
    match db.move generation row (target row) with
    | .error error => (.error error, [], db)
    | .ok db =>
      let rest := moveAll target rows db
      (rest.1, row :: rest.2.1, rest.2.2)

/-- `reset_stale_grants`. -/
def resetStaleGrants : Except StoreError Unit × List OfferedDemand × OfferTable :=
  moveAll generation (fun _ => (.eligible, none))
    (db.rows.filter fun row => row.scaleSetId = scaleSetId ∧ row.generation ≠ i64OfU64 generation
      ∧ (row.state = .granted ∨ row.state = .acquireIntent)) db

/-- `oldest_eligible`. -/
def oldestEligible (limit : Nat) : List OfferedDemand :=
  ((db.rows.filter fun row => row.scaleSetId = scaleSetId ∧ row.state = .eligible).insertionSort
    (fun a b => a.age ≤ b.age)).take limit

/-- Where the gate sends a row. -/
def verdict (row : OfferedDemand) : DemandState × Option String :=
  match classifyProbe row.probe with
  | .trusted => (.granted, none)
  | .unknown reason => (.observed, some reason)

/-- `grant_oldest`, with the rows it had granted when it failed. -/
def grantOldest : Except StoreError Unit × List OfferedDemand × OfferTable :=
  match db.resetStaleGrants scaleSetId generation with
  | (.error error, _, db) => (.error error, [], db)
  | (.ok (), _, db) =>
    let pass := moveAll generation verdict (db.oldestEligible scaleSetId 512) db
    (pass.1, pass.2.1.filter fun row => classifyProbe row.probe = .trusted, pass.2.2)

/-! ## What a statement may do to a row -/

/-- Rows keep the columns of their offer, and one that stands granted stood so
    before or passes the gate. -/
structure Gated (db db' : OfferTable) : Prop where
  probes : ∀ id row, db.get? id = some row →
    ∃ row', db'.get? id = some row' ∧ row'.probe = row.probe
  granted : ∀ id row, db'.get? id = some row → row.state = .granted →
    db.get? id = some row ∨ classifyProbe row.probe = .trusted

variable {scaleSetId generation}

theorem Gated.refl : Gated db db := ⟨fun _ row h => ⟨row, h, rfl⟩, fun _ _ h _ => .inl h⟩

variable {db} {db' db'' : OfferTable}

theorem Gated.trans (h : Gated db db') (h' : Gated db' db'') : Gated db db'' := by
  refine ⟨fun id row hrow => ?_, fun id row hrow hgranted => ?_⟩
  · obtain ⟨mid, hmid, hprobe⟩ := h.probes id row hrow
    obtain ⟨last, hlast, hprobe'⟩ := h'.probes id mid hmid
    exact ⟨last, hlast, hprobe'.trans hprobe⟩
  · rcases h'.granted id row hrow hgranted with hmid | htrusted
    · exact h.granted id row hmid hgranted
    · exact .inr htrusted

theorem gated_submitOffer (stableI64 : Str → Int) (offer : JobMessage) (now : String) :
    Gated db (db.submitOffer scaleSetId generation stableI64 offer now).2 := by
  rw [submitOffer]
  dsimp only
  split
  · exact .refl db
  rename_i hnone
  split
  · rename_i hinsert
    have hget := Table.get?_of_insert? hinsert
    refine ⟨fun id row hrow => ⟨row, ?_, rfl⟩, fun id row hrow hgranted => .inl ?_⟩
    · rw [hget, if_neg]
      · exact hrow
      · rintro rfl
        split at hrow <;> rw [hnone] at hrow <;> cases hrow
    · rw [hget] at hrow
      split_ifs at hrow
      · cases hrow
        split at hgranted <;> cases hgranted
      · exact hrow
  · exact .refl db

variable {row : OfferedDemand} {target : DemandState × Option String}

theorem gated_assign {requestId : Int} {token : Option Token}
    (h : db.assign generation requestId token target = some db')
    (hgate : ∀ row, db.get? requestId = some row → target.1 = .granted →
      classifyProbe row.probe = .trusted) :
    Gated db db' := by
  obtain ⟨old, hold, hget⟩ := Table.get?_of_updateOne? h
  refine ⟨fun id row hrow => ?_, fun id row hrow hgranted => ?_⟩
  · rw [hget]
    split_ifs with hid
    · rw [hid, hold] at hrow
      cases hrow
      exact ⟨_, rfl, rfl⟩
    · exact ⟨row, hrow, rfl⟩
  · rw [hget] at hrow
    split_ifs at hrow with hid
    · cases hrow
      exact .inr (hgate old hold hgranted)
    · exact .inl hrow

theorem gated_move (h : db.move generation row target = .ok db')
    (hgate : ∀ current, db.get? row.requestId = some current → target.1 = .granted →
      classifyProbe current.probe = .trusted) :
    Gated db db' := by
  rw [move] at h
  split at h
  · rw [setStateOwned] at h
    split_ifs at h
    split at h
    · cases h
      exact gated_assign ‹_› hgate
    · cases h
  · rw [setState] at h
    split at h
    · cases h
      exact gated_assign ‹_› hgate
    · cases h

/-- The rows were read before the loop: a row's own turn finds the columns the
    target was computed from. -/
theorem gated_moveAll {target : OfferedDemand → DemandState × Option String}
    (hgate : ∀ row, (target row).1 = .granted → classifyProbe row.probe = .trusted) :
    ∀ {rows : List OfferedDemand} {db : OfferTable},
      (∀ row ∈ rows, ∃ current, db.get? row.requestId = some current ∧ current.probe = row.probe) →
      Gated db (moveAll generation target rows db).2.2
  | [], db, _ => .refl db
  | row :: rows, db, hread => by
    rw [moveAll]
    cases hmove : db.move generation row (target row) with
    | error => exact .refl db
    | ok next =>
      have hnext : Gated db next := by
        refine gated_move hmove fun current hcurrent hgranted => ?_
        obtain ⟨_, hget, hprobe⟩ := hread row mem_cons_self
        rw [← Option.some.inj (hget.symm.trans hcurrent), hprobe]
        exact hgate row hgranted
      refine hnext.trans (gated_moveAll hgate fun later hlater => ?_)
      obtain ⟨read, hget, hprobe⟩ := hread later (mem_cons_of_mem _ hlater)
      obtain ⟨read', hget', hprobe'⟩ := hnext.probes _ read hget
      exact ⟨read', hget', hprobe'.trans hprobe⟩

theorem moveAll_sublist {target : OfferedDemand → DemandState × Option String} :
    ∀ {rows : List OfferedDemand} {db : OfferTable},
      (moveAll generation target rows db).2.1.Sublist rows
  | [], _ => .slnil
  | row :: rows, db => by
    rw [moveAll]
    split
    · exact nil_sublist _
    · exact moveAll_sublist.cons_cons row

theorem gated_resetStaleGrants (scaleSetId : Int) (generation : Nat) :
    Gated db (db.resetStaleGrants scaleSetId generation).2.2 := by
  refine gated_moveAll (fun row h => by cases h) fun row hrow => ?_
  exact ⟨row, Table.get?_of_mem (mem_of_mem_filter hrow), rfl⟩

theorem trusted_of_verdict (h : (verdict row).1 = .granted) :
    classifyProbe row.probe = .trusted := by
  rw [verdict] at h
  split at h
  · assumption
  · cases h

theorem gated_grantOldest (scaleSetId : Int) (generation : Nat) :
    Gated db (db.grantOldest scaleSetId generation).2.2 := by
  have hreset := @gated_resetStaleGrants db scaleSetId generation
  rw [grantOldest]
  split <;> rename_i heq <;> rw [heq] at hreset
  · exact hreset
  refine hreset.trans (gated_moveAll (fun _ => trusted_of_verdict) fun row hrow => ?_)
  have hmem := (mem_insertionSort _).mp (mem_of_mem_take hrow)
  exact ⟨row, Table.get?_of_mem (mem_of_mem_filter hmem), rfl⟩

/-- Candidates are read by age, and what is granted is a part of them. -/
theorem grantOldest_pairwise (db : OfferTable) (scaleSetId : Int) (generation : Nat) :
    (db.grantOldest scaleSetId generation).2.1.Pairwise fun a b => a.age ≤ b.age := by
  rw [grantOldest]
  split
  · exact .nil
  exact ((pairwise_insertionSort _ _).sublist (take_sublist _ _)).sublist
    (filter_sublist.trans moveAll_sublist)

end OfferTable

/-! ## Runs -/

/-- The statements of the demand store up to the grant, each with what it is
    told; a redelivery is an offer that was seen. -/
inductive GateOp where
  | submit (scaleSetId : Int) (generation : Nat) (offer : JobMessage) (now : String)
  | reset (scaleSetId : Int) (generation : Nat)
  | grant (scaleSetId : Int) (generation : Nat)

def GateOp.step (stableI64 : Str → Int) (db : OfferTable) : GateOp → OfferTable
  | .submit scaleSetId generation offer now =>
    (db.submitOffer scaleSetId generation stableI64 offer now).2
  | .reset scaleSetId generation => (db.resetStaleGrants scaleSetId generation).2.2
  | .grant scaleSetId generation => (db.grantOldest scaleSetId generation).2.2

theorem GateOp.gated_step (stableI64 : Str → Int) (db : OfferTable) :
    ∀ op, db.Gated (GateOp.step stableI64 db op)
  | .submit _ _ offer now => OfferTable.gated_submitOffer stableI64 offer now
  | .reset scaleSetId generation => OfferTable.gated_resetStaleGrants scaleSetId generation
  | .grant scaleSetId generation => OfferTable.gated_grantOldest scaleSetId generation

/-- From any table, however its rows became eligible: each step of a run grants
    only rows of a plain event, and each pass grants by age. -/
theorem grants_pass_gate (stableI64 : Str → Int) (start : OfferTable) (ops : List GateOp)
    (op : GateOp) : let db := run (GateOp.step stableI64) start ops
    (∀ id row, (op.step stableI64 db).get? id = some row → row.state = .granted →
        db.get? id = some row ∨ row.probe.Plain)
      ∧ ∀ scaleSetId generation,
        (db.grantOldest scaleSetId generation).2.1.Pairwise fun a b => a.age ≤ b.age := by
  intro db
  refine ⟨fun id row hrow hgranted => ?_, db.grantOldest_pairwise⟩
  exact ((GateOp.gated_step stableI64 db op).granted id row hrow hgranted).imp_right
    plain_of_trusted

end Velnor.Scaleset
