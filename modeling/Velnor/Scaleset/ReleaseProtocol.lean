/-
  A Scale Set release across its two databases: stage, ledger release, finish
  (`release_attempt_with_projection` in lane.rs, `release_with_projection_batch`
  in scale.rs and `owned_release` in reconcile.rs all run these three).
-/
import Velnor.Scaleset.Host

namespace Velnor.Scaleset

open Relational Script StateDb List
open Velnor.Control (Holder Token PermitLedger PermitRow UnixTime LedgerError OwnedReleaseOutcome
  i64OfU64)

/-! ## The sequence -/

/-- Journal the release, free the permit, apply the projections. -/
def releaseWithProjection (row : ReleaseRow) (batchId : Option String) (now : UnixTime) :
    HostScript Bool := do
  let stage ← callDb fun db =>
    db.stageAttemptReleaseInner row.holder row.scaleSetId row.requestId row.attemptToken
      row.ledgerDemandState row.nextDemandState row.workerOwnershipId batchId
  completeStagedAttemptRelease stage now

/-! ## The ledger half -/

/-- The attempt owns its permit, and the ledger demand admits the target. -/
structure OwnsPermit (ledger : PermitLedger) (row : ReleaseRow) : Prop where
  permit : ∃ p, ledger.permits.get? row.holder = some p ∧ p.lane = .scaleSet
    ∧ p.attemptToken = row.attemptToken
  demand : ∃ state, ledger.queued row.holder = some ⟨.scaleSet, state⟩
    ∧ (row.ledgerDemandState.closed = true
      ∨ row.ledgerDemandState = .eligible ∧ (state = .eligible ∨ state = .granted))

/-- The ledger once the permit is freed at time `t`. -/
def freed (ledger : PermitLedger) (row : ReleaseRow) (t : Int) : PermitLedger :=
  (ledger.deleteOwned row.holder row.attemptToken).setDemand row.holder row.ledgerDemandState t

section Freed

variable {ledger : PermitLedger} {row : ReleaseRow}

section

variable (h : OwnsPermit ledger row)
include h

variable (t : Int) (k : Holder) (now : UnixTime)

theorem release_of_owns :
    ledger.releaseScalesetStagedOwned row.holder row.attemptToken row.ledgerDemandState now
      = (.ok .released, freed ledger row (i64OfU64 now.secs)) := by
  obtain ⟨_, hp, hlane, htoken⟩ := h.permit
  obtain ⟨_, hqueued, hadmitted⟩ := h.demand
  exact PermitLedger.releaseScalesetStagedOwned_released hp hlane htoken row.token_nonempty hqueued
    hadmitted now

theorem get?_freed :
    (freed ledger row t).permits.get? k
      = if k = row.holder then none else ledger.permits.get? k := by
  obtain ⟨_, hp, -, htoken⟩ := h.permit
  show (ledger.permits.deleteWhere row.holder _).get? k = _
  rw [Table.get?_deleteWhere, hp]
  simp [Option.filter, htoken]

theorem queued_freed :
    (freed ledger row t).queued k
      = if k = row.holder then some ⟨.scaleSet, row.ledgerDemandState⟩ else ledger.queued k := by
  obtain ⟨_, hqueued, -⟩ := h.demand
  rw [freed, PermitLedger.queued_setDemand, PermitLedger.queued_deleteOwned]
  split
  · rw [hqueued]
    rfl
  · rfl

theorem size_freed : (freed ledger row t).permits.size + 1 = ledger.permits.size := by
  have hocc := (PermitLedger.releaseScalesetStagedOwned_moves ledger row.holder
    row.attemptToken row.ledgerDemandState ⟨0, by decide⟩).refines.occupancy
  rw [release_of_owns h] at hocc
  exact hocc

end

/-- The permit is gone and the ledger demand at its target. -/
structure PermitFreed (ledger : PermitLedger) (row : ReleaseRow) : Prop where
  permit : ledger.permits.get? row.holder = none
  queued : ledger.queued row.holder = some ⟨.scaleSet, row.ledgerDemandState⟩

/-- The holder's permit goes, its demand moves to the target, and no other
    holder's rows change. -/
structure Frees (row : ReleaseRow) (ledger ledger' : PermitLedger) : Prop where
  permit : ∀ k, ledger'.permits.get? k = if k = row.holder then none else ledger.permits.get? k
  queued : ∀ k, ledger'.queued k
    = if k = row.holder then some ⟨.scaleSet, row.ledgerDemandState⟩ else ledger.queued k
  generation : ledger'.generation = ledger.generation

theorem staged_target_of_releasesTo {next : PermitDemandState} (h : releasesTo next = true) :
    next = .eligible ∨ next = .cancelled ∨ next = .terminal := by
  cases next <;> simp_all [releasesTo]

/-- The ledger half goes through the first time and on every replay. -/
theorem release_frees (h : OwnsPermit ledger row ∨ PermitFreed ledger row) (now : UnixTime) :
    ∃ outcome released ledger',
      ledger.releaseScalesetStagedOwned row.holder row.attemptToken row.ledgerDemandState now
          = (.ok outcome, ledger')
        ∧ releasedBy row.holder outcome = .ok released ∧ Frees row ledger ledger' := by
  rcases h with howns | hfreed
  · exact ⟨_, _, _, release_of_owns howns now, rfl, get?_freed howns _, queued_freed howns _, rfl⟩
  · have hreplayed := PermitLedger.releaseScalesetStagedOwned_replayed hfreed.permit
      row.token_nonempty hfreed.queued (staged_target_of_releasesTo row.ledger_check) now
    refine ⟨_, _, _, hreplayed, rfl, fun k => ?_, fun k => ?_, rfl⟩
    · split
      · rename_i hk
        rw [hk, hfreed.permit]
      · rfl
    · split
      · rename_i hk
        rw [hk, hfreed.queued]
      · rfl

end Freed

end Velnor.Scaleset
