/-
  A second attempt of one request (scaleset/demand.rs).  Batches are never
  deleted, so a request that an earlier batch reported missing, that went back
  to `eligible` and was granted again, is still listed there under the token
  of its first attempt.

  What the journal should depend on is `Paired`: some batch of the scale set
  records the staged token beside the request.  The scan, intended batches
  first, stops at the first one that lists the request and refuses when it
  records another token, so it answers by `Paired` exactly when the first
  listing is under the staged token, if there is one at all.
-/
import Velnor.Scaleset.AcquireProtocol

namespace Velnor.Scaleset

open Relational List
open Velnor.Control (Holder Token PermitLedger)

/-- Tokens are recorded, one for each request. -/
def AcquireBatch.WellFormed (batch : AcquireBatch) : Prop :=
  ∃ tokens, batch.attemptTokens = some tokens ∧ tokens.length = batch.requestIds.length

/-- The batch lists the request and records this token beside it. -/
def AcquireBatch.Pairs (batch : AcquireBatch) (requestId : Int) (token : Token) : Prop :=
  requestId ∈ batch.requestIds ∧ batch.memberToken requestId = some token

instance (batch : AcquireBatch) (requestId : Int) (token : Token) :
    Decidable (batch.Pairs requestId token) :=
  inferInstanceAs (Decidable (_ ∧ _))

namespace StateDb

/-- Some batch of the scale set pairs the request with the token. -/
def Paired (db : StateDb) (scaleSetId requestId : Int) (token : Token) : Prop :=
  ∃ batch ∈ db.batches.rows, batch.scaleSetId = scaleSetId ∧ batch.Pairs requestId token

instance (db : StateDb) (scaleSetId requestId : Int) (token : Token) :
    Decidable (db.Paired scaleSetId requestId token) :=
  inferInstanceAs (Decidable (∃ _ ∈ _, _))

/-- The first batch of the set that the scan finds to list the request, if there
    is one, records this token beside it. -/
def FirstListedUnder (db : StateDb) (scaleSetId requestId : Int) (token : Token) : Prop :=
  ∀ batch, db.batchOf scaleSetId requestId = some batch → batch.memberToken requestId = some token

/-- Nothing but an acquire is journaled for the holder. -/
structure Unfenced (db : StateDb) (holder : Holder) : Prop where
  release : db.releases.get? holder = none
  releaseBatch : db.releaseBatches.get? holder = none
  rotation : holder ∉ db.rotations

section Retry

variable {db : StateDb} {stage : StagedAttemptAcquire} {d : Demand}
  {scaleSetId requestId : Int} {token : Token}

/-! ## Detecting the batch -/

theorem containsAttempt_of_memberToken {batch : AcquireBatch} (hwf : batch.WellFormed)
    (htoken : batch.memberToken requestId = some token) :
    batch.containsAttempt requestId token = .ok true := by
  obtain ⟨_, htokens, hlength⟩ := hwf
  rw [AcquireBatch.memberToken, htokens, Option.bind_some] at htoken
  simp [AcquireBatch.containsAttempt, htokens, hlength, htoken]

theorem paired_of_batchOf {batch : AcquireBatch} (h : db.batchOf scaleSetId requestId = some batch)
    (htoken : batch.memberToken requestId = some token) : db.Paired scaleSetId requestId token := by
  have hlisted := find?_some h
  simp only [decide_eq_true_eq] at hlisted
  exact ⟨batch, mem_scanOrder.mp (mem_of_find?_eq_some h), hlisted.1, hlisted.2, htoken⟩

theorem not_paired_of_batchOf (h : db.batchOf scaleSetId requestId = none) :
    ¬ db.Paired scaleSetId requestId token := by
  rintro ⟨batch, hmem, hset, hlisted, -⟩
  have hnot := find?_eq_none.mp h batch (mem_scanOrder.mpr hmem)
  simp [hset, hlisted] at hnot

/-- The scan answers by `Paired` as long as its first listing is under the
    token that is asked for. -/
theorem acquireBatchContainsAttempt_eq_paired (hwf : ∀ batch ∈ db.batches.rows, batch.WellFormed)
    (hfirst : db.FirstListedUnder scaleSetId requestId token) :
    db.acquireBatchContainsAttempt scaleSetId requestId token
      = .ok (decide (db.Paired scaleSetId requestId token)) := by
  cases hbatch : db.batchOf scaleSetId requestId with
  | none =>
    rw [acquireBatchContainsAttempt_none hbatch, decide_eq_false (not_paired_of_batchOf hbatch)]
  | some batch =>
    have htoken := hfirst batch hbatch
    rw [acquireBatchContainsAttempt, hbatch, decide_eq_true (paired_of_batchOf hbatch htoken)]
    exact containsAttempt_of_memberToken
      (hwf batch (mem_scanOrder.mp (mem_of_find?_eq_some hbatch))) htoken

/-! ## Staging again -/

/-- A granted request with nothing journaled is staged under any token that is
    not the one it had. -/
theorem stageAttemptAcquire_accepts (hfree : db.Unfenced (permitHolder scaleSetId requestId))
    (hacquire : db.acquires.get? (permitHolder scaleSetId requestId) = none)
    (hdemand : db.demandOf scaleSetId requestId = some d) (hgranted : d.state = .granted)
    (hnonempty : token ≠ "") (hnew : d.permitAttemptToken ≠ some token) :
    ∃ staged db', db.stageAttemptAcquire (permitHolder scaleSetId requestId) scaleSetId requestId
        d.permitAttemptToken token = (.ok staged, db')
      ∧ staged.targetAttemptToken = token := by
  have hvalid : permitHolder scaleSetId requestId = permitHolder scaleSetId requestId
      ∧ token ≠ "" ∧ d.permitAttemptToken ≠ some token := ⟨rfl, hnonempty, hnew⟩
  let staged : StagedAttemptAcquire :=
    ⟨permitHolder scaleSetId requestId, scaleSetId, requestId, d.permitAttemptToken, token, rfl,
      hnonempty⟩
  obtain ⟨acquires, hinsert, -⟩ := Table.exists_insert? (r := staged) hacquire
    fun _ => StagedAttemptAcquire.holder_eq_of_request
  refine ⟨staged, { db with acquires }, transact_of_ok ?_, rfl⟩
  simp only [bind_eq_ok, orRefuse_eq_ok]
  refine ⟨staged, dif_pos hvalid, ?_⟩
  simp only [stageAttemptAcquireTx, bind_eq_ok, refuseIf_eq_ok, orRefuse_eq_ok, pure_eq_ok]
  refine ⟨(), ?_, (), hfree.rotation, d, hdemand, (), ?_, acquires, ?_, rfl⟩
  · simp [staged, hfree.release, hfree.releaseBatch]
  · simp [staged, hgranted]
  · simp only [putAcquire, staged, hacquire]
    exact orRefuse_eq_ok.mpr hinsert

/-! ## Rolling back -/

/-- What rolling back a staged acquire should do: a batch that pairs the request
    with the staged token stops it, and without one the stage goes, after which
    the request can be staged again under any new token. -/
structure RollsBackByPairing (db : StateDb) (stage : StagedAttemptAcquire) (d : Demand) : Prop where
  paired : db.Paired stage.scaleSetId stage.requestId stage.targetAttemptToken →
    db.finishAttemptAcquire stage false = (.error (.acquireBatchExists stage.holder), db)
  unpaired : ¬ db.Paired stage.scaleSetId stage.requestId stage.targetAttemptToken →
    ∃ acquires, db.finishAttemptAcquire stage false = (.ok true, { db with acquires })
      ∧ (∀ k, acquires.get? k = if k = stage.holder then none else db.acquires.get? k)
      ∧ ∀ next, db.Unfenced stage.holder → next ≠ "" → stage.previousAttemptToken ≠ some next →
        ∃ staged db', { db with acquires }.stageAttemptAcquire stage.holder stage.scaleSetId
            stage.requestId stage.previousAttemptToken next = (.ok staged, db')
          ∧ staged.targetAttemptToken = next

theorem rollsBackByPairing (hwf : ∀ batch ∈ db.batches.rows, batch.WellFormed)
    (hfirst : db.FirstListedUnder stage.scaleSetId stage.requestId stage.targetAttemptToken)
    (h : db.Pending stage d) (htoken : d.permitAttemptToken = stage.previousAttemptToken) :
    db.RollsBackByPairing stage d where
  paired hpaired := by
    have hfound := acquireBatchContainsAttempt_eq_paired hwf hfirst
    rw [decide_eq_true hpaired] at hfound
    have hbody : finishAttemptAcquireTx stage false db
        = .error (.acquireBatchExists stage.holder) := by
      rw [finishAttemptAcquireTx, checkRecorded_ok h, ok_bind, h.demand, orRefuse_some, ok_bind,
        refuseIf_pass (not_not_intro h.granted), ok_bind, if_neg Bool.false_ne_true,
        refuseIf_pass (not_not_intro htoken), ok_bind, hfound, ok_bind, refuseIf_stop rfl]
      rfl
    rw [finishAttemptAcquire, transact, hbody]
  unpaired hunpaired := by
    have hnone : db.batchOf stage.scaleSetId stage.requestId = none := by
      cases hbatch : db.batchOf stage.scaleSetId stage.requestId with
      | none => rfl
      | some batch => exact absurd (paired_of_batchOf hbatch (hfirst batch hbatch)) hunpaired
    obtain ⟨acquires, hfinish, hread⟩ := finishAttemptAcquire_absent h htoken hnone
    refine ⟨acquires, hfinish, hread, fun next hfree hnonempty hnew => ?_⟩
    rw [stage.holder_eq] at hfree hread ⊢
    rw [← htoken] at hnew ⊢
    exact stageAttemptAcquire_accepts
      { hfree with } (by rw [hread, if_pos rfl]) h.demand
      h.granted hnonempty hnew

end Retry

end StateDb

/-- Detection and rollback of a staged acquire go by whether some batch of the
    set pairs the request with the staged token, exactly when the first batch
    that lists the request, if any, records that token. -/
theorem retry_depends_only_on_pairing (db : StateDb) (stage : StagedAttemptAcquire)
    (hwf : ∀ batch ∈ db.batches.rows, batch.WellFormed) :
    (db.acquireBatchContainsAttempt stage.scaleSetId stage.requestId stage.targetAttemptToken
          = .ok (decide (db.Paired stage.scaleSetId stage.requestId stage.targetAttemptToken))
        ∧ ∀ d, db.Pending stage d → d.permitAttemptToken = stage.previousAttemptToken →
          db.RollsBackByPairing stage d)
      ↔ db.FirstListedUnder stage.scaleSetId stage.requestId stage.targetAttemptToken := by
  constructor
  · rintro ⟨hdetect, -⟩ _ hbatch
    rw [StateDb.acquireBatchContainsAttempt, hbatch] at hdetect
    exact (StateDb.containsAttempt_eq_ok hdetect).2
  · intro hfirst
    exact ⟨StateDb.acquireBatchContainsAttempt_eq_paired hwf hfirst,
      fun d hpending htoken => StateDb.rollsBackByPairing hwf hfirst hpending htoken⟩

/-! ## A retry that is stuck -/

/-- A host whose one permit is taken, with request 7 granted again after its
    first attempt `t0` was resolved as missing. -/
def retriedHost : Host where
  ledger := { PermitLedger.empty with
    permitMeta := ⟨some 1, 0, -1⟩
    permits := ⟨[PermitLedger.freshPermitRow (permitHolder 1 9) .scaleSet .reserved 0 (some 41)
        "t9" permitTime], nodup_singleton _, nodup_singleton _⟩ }
  db := { StateDb.empty with
    demands := ⟨[grantedOffer 7 1 none], by decide, by decide⟩
    batches := ⟨[⟨"batch-0", 1, [7], [permitHolder 1 7], some [some "t0"], .resolved, false, 0⟩],
      by decide, by decide⟩ }

/-- The same database once a second batch is recorded, for the second attempt. -/
def rescannedDb : StateDb := { retriedHost.db with
  batches := ⟨[⟨"batch-0", 1, [7], [permitHolder 1 7], some [some "t0"], .resolved, false, 0⟩,
    ⟨"batch-1", 1, [7], [permitHolder 1 7], some [some "t7"], .intended, false, 0⟩],
    by decide, by decide⟩ }

/-- The scan meets the intended batch first, and the resolved one not at all. -/
theorem retry_depends_only_on_pairing_intended :
    (∀ batch ∈ rescannedDb.batches.rows, batch.WellFormed)
      ∧ rescannedDb.FirstListedUnder 1 7 "t7"
      ∧ rescannedDb.acquireBatchContainsAttempt 1 7 "t7"
        = .ok (decide (rescannedDb.Paired 1 7 "t7")) := by
  have hwf : ∀ batch ∈ rescannedDb.batches.rows, batch.WellFormed := by
    intro _ hbatch
    rcases mem_pair.mp hbatch with rfl | rfl
    · exact ⟨[some "t0"], rfl, rfl⟩
    · exact ⟨[some "t7"], rfl, rfl⟩
  let stage : StagedAttemptAcquire := ⟨permitHolder 1 7, 1, 7, none, "t7", rfl, by decide⟩
  have hfirst : rescannedDb.FirstListedUnder 1 7 "t7" := by
    intro _ hbatch
    cases hbatch
    rfl
  exact ⟨hwf, hfirst, ((retry_depends_only_on_pairing rescannedDb stage hwf).mpr hfirst).1⟩

/-- The same daemon at its next pass, with fresh uuids. -/
def laterDaemon : Daemon :=
  { soleDaemon 41 with mint := fun requestId => "u" ++ requestId.repr, batchId := "batch-2" }

/-- No batch pairs request 7 with the token of its second attempt; still the
    full ledger's rollback is refused, the stage stays, and the next pass
    cannot stage the request. -/
theorem retried_request_stuck :
    ¬ retriedHost.db.Paired 1 7 "t7"
      ∧ ((acquirePass (soleDaemon 41) [grantedOffer 7 1 none]).run retriedHost).1
        = .error (.store (.batchBelongsToAnother 7))
      ∧ ((acquirePass (soleDaemon 41) [grantedOffer 7 1 none]).run
        retriedHost).2.db.acquires.rows.map StagedAttemptAcquire.targetAttemptToken = ["t7"]
      ∧ ((acquirePass laterDaemon [grantedOffer 7 1 none]).run
          ((acquirePass (soleDaemon 41) [grantedOffer 7 1 none]).run retriedHost).2).1
        = .error (.store (.acquireBelongsToAnother (permitHolder 1 7))) := by
  refine ⟨by decide, rfl, rfl, rfl⟩

end Velnor.Scaleset
