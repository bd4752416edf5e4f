/-
  A Scale Set acquire across its two databases, cut anywhere and recovered by
  the next process: a token is on all three records (permit, demand row, batch
  member) or the offer is back where it can be taken again.
-/
import Velnor.Scaleset.AcquireRecovery

namespace Velnor.Scaleset

open Relational List
open Velnor.Control (PermitLedger)

/-- Cut a pass over fresh offers anywhere, with its process dead, on a host
    whose pending stages are recoverable.  The recovery goes through and
    clears every stage, every offer ends in exactly one of the two consistent
    outcomes, and recovering again changes nothing. -/
theorem staged_acquire_converges (old new : Daemon) (host : Host) (candidates : List Demand)
    (hset : old.scaleSetId = new.scaleSetId) (hdead : new.Outlives old.pid.toNat)
    (hfresh : ∀ c ∈ candidates, Fresh new ⟨old.scaleSetId, c.requestId⟩
      (host.footprint ⟨old.scaleSetId, c.requestId⟩))
    (hdistinct : (candidates.map Demand.requestId).Nodup)
    (hpending : ∀ stage ∈ host.db.acquires.rows,
      Recoverable new stage (host.footprint stage.request)) (n : Nat) :
    ∃ ended,
      (recoverStagedAttemptAcquisitions new).run ((acquirePass old candidates).cut n host)
          = (.ok (), ended)
        ∧ ended.db.acquires.rows = []
        ∧ (∀ c ∈ candidates,
          Xor (ended.footprint ⟨old.scaleSetId, c.requestId⟩).Free
            ((ended.footprint ⟨old.scaleSetId, c.requestId⟩).Kept c.requestId))
        ∧ ∀ again : Daemon, (recoverStagedAttemptAcquisitions again).run ended
          = (.ok (), ended) := by
  -- before the pass: the offers are free, and what is pending is recoverable
  have hbefore : CutSafe new (candidates.map fun c => ⟨old.scaleSetId, c.requestId⟩) host := by
    intro _
    refine ⟨fun stage hstage => ?_, fun _ hq => ?_⟩
    · rw [← request_of_stage hstage]
      exact hpending stage (mem_of_stage hstage)
    · obtain ⟨c, hc, rfl⟩ := mem_map.mp hq
      obtain ⟨d, hd, hgranted⟩ := (hfresh c hc).demand
      exact .inl ⟨(hfresh c hc).permit, (hfresh c hc).batch, d, hd, .inl hgranted⟩
  obtain ⟨ended, hrun, hcleared, hsettled⟩ := recoverStagedAttemptAcquisitions_run
    (acquirePass_cutSafe hset hdead hbefore hfresh hdistinct n)
  refine ⟨ended, hrun, hcleared, fun c hc => ?_,
    fun again => recoverStagedAttemptAcquisitions_idle hcleared⟩
  rcases hsettled _ (mem_map.mpr ⟨c, hc, rfl⟩) with hfree | hkept
  · exact .inl ⟨hfree, Footprint.not_kept_of_free hfree⟩
  · exact .inr ⟨hkept, fun hfree => Footprint.not_kept_of_free hfree hkept⟩

theorem soleDaemon_bare (pid : UInt32) (requestId : Int) : (soleDaemon pid).Bare requestId :=
  fun _ => ⟨Int.one_ne_zero, rfl⟩

/-- A granted offer. -/
def grantedOffer (requestId sequence : Int) (token : Option Velnor.Control.Token) : Demand :=
  ⟨requestId, 1, sequence, .granted, none, 0, token⟩

/-- A host with room for two jobs and two granted offers. -/
def offersHost : Host where
  ledger := { PermitLedger.empty with permitMeta := ⟨some 2, 0, -1⟩ }
  db := { StateDb.empty with
    demands := ⟨[grantedOffer 7 1 none, grantedOffer 8 2 none], by decide, by decide⟩ }

/-- The first offer is reserved and projected, the second has its permit but
    not its token yet. -/
theorem staged_acquire_converges_two_offers :
    ∃ ended,
      (recoverStagedAttemptAcquisitions (soleDaemon 42)).run
          ((acquirePass (soleDaemon 41) [grantedOffer 7 1 none, grantedOffer 8 2 none]).cut 6
            offersHost)
          = (.ok (), ended)
        ∧ ended.db.acquires.rows = []
        ∧ Xor (ended.footprint ⟨1, 8⟩).Free ((ended.footprint ⟨1, 8⟩).Kept 8) := by
  have hfresh : ∀ c ∈ [grantedOffer 7 1 none, grantedOffer 8 2 none],
      Fresh (soleDaemon 42) ⟨1, c.requestId⟩ (offersHost.footprint ⟨1, c.requestId⟩) := by
    intro _ hc
    rcases mem_pair.mp hc with rfl | rfl
    · exact ⟨rfl, rfl, ⟨_, rfl, rfl⟩, rfl, rfl, soleDaemon_bare 42 7⟩
    · exact ⟨rfl, rfl, ⟨_, rfl, rfl⟩, rfl, rfl, soleDaemon_bare 42 8⟩
  obtain ⟨ended, hrun, hcleared, houtcome, -⟩ := staged_acquire_converges (soleDaemon 41)
    (soleDaemon 42) offersHost [grantedOffer 7 1 none, grantedOffer 8 2 none] rfl
    ⟨by decide, rfl⟩ hfresh (by decide) (by intro stage hstage; cases hstage) 6
  exact ⟨ended, hrun, hcleared, houtcome (grantedOffer 8 2 none) (mem_cons_of_mem _ mem_cons_self)⟩

/-- The same offer, whose holder has a permit under the row's own token. -/
def heldOfferHost : Host where
  ledger := { PermitLedger.empty with
    permitMeta := ⟨some 2, 0, -1⟩
    permits := ⟨[PermitLedger.freshPermitRow (permitHolder 1 7) .scaleSet .reserved 0 (some 41)
        "t0" permitTime], nodup_singleton _, nodup_singleton _⟩ }
  db := { StateDb.empty with
    demands := ⟨[grantedOffer 7 1 (some "t0")], by decide, by decide⟩ }

/-- An offer with no batch, no worker, no intent and no container, granted, whose
    holder already has a permit: cut right after staging, it is not recovered. -/
theorem held_offer_not_recovered :
    (heldOfferHost.footprint ⟨1, 7⟩).batch = none
      ∧ (heldOfferHost.footprint ⟨1, 7⟩).demand = some (grantedOffer 7 1 (some "t0"))
      ∧ (heldOfferHost.footprint ⟨1, 7⟩).worker = none
      ∧ (heldOfferHost.footprint ⟨1, 7⟩).intent = none
      ∧ (soleDaemon 42).Bare 7 ∧ (soleDaemon 42).Outlives (soleDaemon 41).pid.toNat
      ∧ ((recoverStagedAttemptAcquisitions (soleDaemon 42)).run
          ((acquirePass (soleDaemon 41) [grantedOffer 7 1 (some "t0")]).cut 2 heldOfferHost)).1
        = .error (.notTheReservedAttempt (permitHolder 1 7)) := by
  refine ⟨rfl, rfl, rfl, rfl, soleDaemon_bare 42 7, ⟨by decide, rfl⟩, ?_⟩
  rfl

end Velnor.Scaleset
