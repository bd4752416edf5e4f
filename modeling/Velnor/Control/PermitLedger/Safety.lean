/-
  What holds across any interleaving of ledger operations: capacity is never
  exceeded, closed demand stays closed, permits and demands agree, and every
  permit that was granted is released at most once.

  All four are read off `LedgerOp.step_refines`, so none of them looks at an
  operation again, except for what a grant rests on.
-/
import Velnor.Control.PermitLedger.Ops

namespace Velnor.Control

open Relational PermitLedger LedgerEvent Option

/-- The events of a run, in order. -/
def ledgerEvents (start : PermitLedger) (ops : List LedgerOp) : List LedgerEvent :=
  trace LedgerOp.step LedgerOp.event start ops

/-- The ledger after a run. -/
def runLedger (start : PermitLedger) (ops : List LedgerOp) : PermitLedger :=
  run LedgerOp.step start ops

/-! ## Capacity -/

variable {holder : Holder} {op : LedgerOp}

namespace LedgerOp

/-- Only an acquire grants, and only below the configured `N`. -/
theorem of_isGrant {ledger : PermitLedger} (h : (op.event ledger).isGrant = true) :
    op.isAcquire = true ∧ ∃ n, ledger.maxJobs = some n ∧ ledger.permits.size < n := by
  cases op with
  | acquireAttempt =>
    obtain ⟨-, -, n, _, _, hn, hroom, -⟩ := acquireAttemptWithToken_grant h
    exact ⟨rfl, n, hn, hroom⟩
  | acquireScalesetAttempt holder state generation pid token now =>
    rw [event] at h
    rcases ledger.acquireScalesetAttemptWithToken_cases holder state generation pid token now
      with hstep | hstep <;> rw [hstep] at h
    · cases h
    · obtain ⟨-, -, n, _, _, hn, hroom, -⟩ := acquireAttemptWithToken_grant h
      exact ⟨rfl, n, hn, hroom⟩
  -- the other labelled answers are retokens and releases
  | adoptForRedelivery =>
    simp only [event, adoptEvent] at h
    split at h <;> cases h
  | rotateScalesetAttempt holder state generation previousPid previousToken targetToken claimToken
      currentPid now =>
      simp only [event, rotateEvent] at h
      split at h <;> cases h
  | releaseOwned | releaseToEligibleOwned | releaseCancelledOwned =>
    simp only [event, releaseEvent] at h
    split at h <;> cases h
  | releaseNativeTerminalOwned | releaseNativeCancelledOwned | releaseScalesetStagedOwned =>
    simp only [event, ownedReleaseEvent] at h
    split at h <;> cases h
  | _ => cases h

theorem isGrant_of_size_lt {ledger : PermitLedger}
    (h : ledger.permits.size < (op.step ledger).permits.size) :
    (op.event ledger).isGrant = true ∧ (op.step ledger).permits.size = ledger.permits.size + 1 := by
  have hocc := (op.step_refines ledger).occupancy
  cases hg : (op.event ledger).isGrant with
  | false =>
    rw [hg] at hocc
    simp only [Bool.false_eq_true, if_false] at hocc
    omega
  | true =>
    rw [hg] at hocc
    simp only [if_true] at hocc
    refine ⟨rfl, ?_⟩
    omega

/-- The step does not lower `N` below the current count. -/
def KeepsRoom (ledger : PermitLedger) (op : LedgerOp) : Prop :=
  ∀ n n', ledger.maxJobs = some n → (op.step ledger).maxJobs = some n' → n' < n →
    ledger.permits.size ≤ n'

instance (ledger : PermitLedger) (op : LedgerOp) : Decidable (op.KeepsRoom ledger) :=
  decidable_of_iff
    (∀ n ∈ ledger.maxJobs, ∀ n' ∈ (op.step ledger).maxJobs, n' < n → ledger.permits.size ≤ n')
    ⟨fun h n n' hn hn' => h n hn n' hn', fun h n hn n' hn' => h n n' hn hn'⟩

/-- `N` changes only in the two calls that set it; the second only when it was
    unset. -/
theorem step_maxJobs (ledger : PermitLedger) (op : LedgerOp) :
    (op.step ledger).maxJobs = ledger.maxJobs
      ∨ (∃ n, (op.step ledger).maxJobs = some n ∧ op.isAcquire = false) := by
  cases op with
  | setMaxJobs n => exact .inr ⟨_, ledger.maxJobs_setMaxJobs n, rfl⟩
  | setMaxJobsIfUnset n =>
    rcases ledger.setMaxJobsIfUnset_cases n with hstep | hstep <;> rw [step, hstep]
    · exact .inr ⟨_, ledger.maxJobs_setMaxJobs n, rfl⟩
    · exact .inl rfl
  | beginEpoch => exact .inl rfl
  | reconcile =>
    left
    refine immediate_of_commits
      (P := fun db : PermitLedger => db.maxJobs = ledger.maxJobs) rfl fun _ _ hbody => ?_
    rw [maxJobs, maxJobs, reconcileTx_permitMeta hbody]
  | _ =>
    left
    rw [maxJobs, maxJobs, step_permitMeta ledger rfl]

end LedgerOp

/-- The permits of both lanes together are at most `N`; an unset `N` is none. -/
def PermitLedger.WithinCapacity (ledger : PermitLedger) : Prop :=
  ledger.permits.size ≤ ledger.maxJobs.getD 0

instance (ledger : PermitLedger) : Decidable ledger.WithinCapacity :=
  inferInstanceAs (Decidable (_ ≤ _))

variable {ledger : PermitLedger}

theorem LedgerOp.step_withinCapacity (hroom : op.KeepsRoom ledger) (h : ledger.WithinCapacity) :
    (op.step ledger).WithinCapacity := by
  unfold PermitLedger.WithinCapacity at h ⊢
  by_cases hgrew : ledger.permits.size < (op.step ledger).permits.size
  · -- a grant: below `N` before, and `N` is as it was
    obtain ⟨hgrant, _⟩ := isGrant_of_size_lt hgrew
    obtain ⟨hacq, _, hn, _⟩ := of_isGrant hgrant
    rcases op.step_maxJobs ledger with hsame | ⟨n', -, hnot⟩
    · rw [hsame, hn, getD_some]
      omega
    · rw [hacq] at hnot
      cases hnot
  · -- no new row: only `N` can have moved
    rcases op.step_maxJobs ledger with hsame | ⟨n', hn', -⟩
    · rw [hsame]
      omega
    rw [hn', getD_some]
    cases hn : ledger.maxJobs with
    | none =>
      rw [hn, getD_none] at h
      omega
    | some n =>
      rw [hn, getD_some] at h
      have hkeep := hroom n n' hn hn'
      omega

/-- In every run the permit rows grow only in a fresh acquire, by one, below
    the `N` then configured; so while `N` is never lowered below the count, the
    two lanes together never hold more than `N`. -/
theorem permits_never_exceed_max_jobs (start : PermitLedger) (ops : List LedgerOp) :
    Along LedgerOp.step
        (fun ledger op => ledger.permits.size < (op.step ledger).permits.size →
          op.isAcquire = true ∧ (op.event ledger).isGrant = true
            ∧ (op.step ledger).permits.size = ledger.permits.size + 1
            ∧ ∃ n, ledger.maxJobs = some n ∧ ledger.permits.size < n)
        start ops
      ∧ (start.WithinCapacity →
          Along LedgerOp.step (fun ledger op => op.KeepsRoom ledger) start ops →
          (runLedger start ops).WithinCapacity) := by
  constructor
  · induction ops generalizing start with
    | nil => trivial
    | cons op _ ih =>
      refine ⟨fun hgrew => ?_, ih (op.step start)⟩
      obtain ⟨hgrant, hsize⟩ := LedgerOp.isGrant_of_size_lt hgrew
      obtain ⟨hacq, n, hn, hlt⟩ := LedgerOp.of_isGrant hgrant
      exact ⟨hacq, hgrant, hsize, n, hn, hlt⟩
  · intro hstart hkeeps
    exact run_preserves_along (fun _ _ hroom h => LedgerOp.step_withinCapacity hroom h) hstart
      hkeeps

/-- Two lanes compete for one permit: the second is refused. -/
theorem permits_never_exceed_max_jobs_contended :
    let ops : List LedgerOp :=
      [.setMaxJobs 1,
        .acquireAttempt "native/1" .native .reserved 0 none "t1" ⟨1000, by decide⟩,
        .acquireScalesetAttempt "scaleset/7/1" .reserved 0 none "t2" ⟨1001, by decide⟩]
    (runLedger .empty ops).permits.size = 1 ∧ (runLedger .empty ops).WithinCapacity := by
  intro ops
  exact ⟨by decide, (permits_never_exceed_max_jobs .empty ops).2 (by decide) (by decide)⟩

/-! ## Closed demand -/

/-- A closed demand stays closed, and its holder stays without a permit if it
    has none. -/
theorem LedgerOp.step_closed (op : LedgerOp) (h : (ledger.view holder).Closed) :
    ((op.step ledger).view holder).Closed
      ∧ (ledger.permits.get? holder = none → (op.step ledger).permits.get? holder = none) := by
  have hstep := op.step_refines ledger holder
  obtain ⟨hclosed, hnogrant⟩ := hstep.closed h
  refine ⟨hclosed, fun hnone => ?_⟩
  rw [← holding_eq_none_iff] at hnone ⊢
  exact hstep.permit_eq_none hnogrant hnone

theorem PermitLedger.closed_iff :
    (ledger.view holder).Closed
      ↔ ∃ row, ledger.demands.get? holder = some row
        ∧ (row.state = .terminal ∨ row.state = .cancelled) := by
  constructor
  · rintro ⟨_, hq, hc⟩
    obtain ⟨row, hrow, rfl⟩ := map_eq_some_iff.mp hq
    refine ⟨row, hrow, ?_⟩
    by_contra hno
    rw [DemandState.closed_eq_false_iff.mpr hno] at hc
    cases hc
  · rintro ⟨_, hrow, hstate⟩
    refine ⟨_, queued_of_get? hrow, ?_⟩
    rcases hstate with hs | hs <;> rw [hs] <;> rfl

/-- Once a demand is terminal or cancelled it is one of the two after every run,
    and no step of the run inserts a permit for its holder. -/
theorem closed_demand_stays_closed (ledger : PermitLedger) (holder : Holder)
    (hclosed : ∃ row, ledger.demands.get? holder = some row
      ∧ (row.state = .terminal ∨ row.state = .cancelled))
    (ops : List LedgerOp) :
    (∃ row, (runLedger ledger ops).demands.get? holder = some row
        ∧ (row.state = .terminal ∨ row.state = .cancelled))
      ∧ Along LedgerOp.step
          (fun before op => before.permits.get? holder = none →
            (op.step before).permits.get? holder = none)
          ledger ops := by
  rw [← closed_iff] at hclosed ⊢
  induction ops generalizing ledger with
  | nil => exact ⟨hclosed, trivial⟩
  | cons op _ ih =>
    obtain ⟨hstep, hnogrant⟩ := op.step_closed hclosed
    obtain ⟨hrest, halong⟩ := ih (op.step ledger) hstep
    exact ⟨hrest, hnogrant, halong⟩

/-- A cancelled demand, redelivered and acquired for. -/
theorem closed_demand_stays_closed_redelivered :
    let ledger := runLedger .empty
      [.observeDemand "native/1" .native "" 5 5, .cancelDemand "native/1" ⟨6, by decide⟩]
    let ops : List LedgerOp :=
      [.setMaxJobs 1, .observeDemand "native/1" .native "" 7 7,
        .acquireAttempt "native/1" .native .reserved 0 none "t1" ⟨1000, by decide⟩]
    ∃ row, (runLedger ledger ops).demands.get? "native/1" = some row
      ∧ (row.state = .terminal ∨ row.state = .cancelled) := by
  intro ledger ops
  have hclosed : ∃ row, ledger.demands.get? "native/1" = some row
      ∧ (row.state = .terminal ∨ row.state = .cancelled) :=
    ⟨⟨"native/1", .native, "", 5, 1, .cancelled, 6⟩, by decide, by decide⟩
  exact (closed_demand_stays_closed ledger "native/1" hclosed ops).1

/-! ## Permits and demands agree -/

theorem PermitLedger.empty_consistent (holder : Holder) : Consistent (empty.view holder) := by
  intro _ h
  cases h

theorem runLedger_consistent (ops : List LedgerOp) (holder : Holder) :
    Consistent ((runLedger .empty ops).view holder) :=
  run_preserves (I := fun ledger : PermitLedger => ∀ h, Consistent (ledger.view h))
    (fun ledger op h => (op.step_refines ledger).consistent h) empty_consistent ops
    holder

/-- In every reachable ledger a permit has a demand of its lane that is granted
    or closed, and a granted demand has its permit. -/
theorem reachable_permits_and_demands_agree (ops : List LedgerOp) :
    let ledger := runLedger .empty ops
    (∀ holder permit, ledger.permits.get? holder = some permit →
        ∃ demand, ledger.demands.get? holder = some demand ∧ demand.lane = permit.lane
          ∧ (demand.state = .granted ∨ demand.state = .terminal ∨ demand.state = .cancelled))
      ∧ ∀ holder demand, ledger.demands.get? holder = some demand → demand.state = .granted →
          ∃ permit, ledger.permits.get? holder = some permit := by
  intro ledger
  refine ⟨fun holder permit hpermit => ?_, fun holder demand hdemand hgranted => ?_⟩
  · have hc := runLedger_consistent ops holder
    have hholding : ledger.holding holder = some ⟨permit.lane, permit.attemptToken⟩ :=
      holding_of_get? hpermit
    obtain ⟨state, hq, hstate⟩ := Consistent.of_held hc hholding
    obtain ⟨demand, hdemand, heq⟩ := map_eq_some_iff.mp hq
    obtain ⟨hlane, rfl⟩ := Queued.mk.inj heq
    refine ⟨demand, hdemand, hlane, ?_⟩
    revert hstate
    cases demand.state <;> simp [DemandState.closed]
  · cases hpermit : ledger.permits.get? holder with
    | some permit => exact ⟨permit, rfl⟩
    | none =>
      have hc := runLedger_consistent ops holder
      have hq := queued_of_get? hdemand
      rw [hgranted] at hq
      exact absurd hq (Consistent.of_unheld hc (ledger.holding_eq_none_iff.mpr hpermit) _)

/-! ## Conservation and exactly-once release -/

theorem countP_introduces (events : List LedgerEvent) (token : Token) :
    events.countP (introduces token) = (events.filterMap introduced).count token := by
  rw [List.count_filterMap]
  rfl

theorem PermitLedger.carries_empty (token : Token) : empty.carries token = false := rfl

/-- From an empty ledger the rows are the fresh acquires less the releases that
    reported success; and when no token is introduced twice, each is released
    at most once. -/
theorem occupancy_conserved (ops : List LedgerOp)
    (hfresh : ((ledgerEvents .empty ops).filterMap LedgerEvent.introduced).Nodup) :
    (runLedger .empty ops).permits.size + (ledgerEvents .empty ops).countP LedgerEvent.isRelease
        = (ledgerEvents .empty ops).countP LedgerEvent.isGrant
      ∧ ∀ token, (ledgerEvents .empty ops).countP (LedgerEvent.releases token) ≤ 1 := by
  constructor
  · have h := run_balance (m := fun ledger : PermitLedger => ledger.permits.size)
      (fun ledger op => (op.step_refines ledger).occupancy) .empty ops
    have hzero : empty.permits.size = 0 := rfl
    rw [hzero, Nat.zero_add] at h
    exact h
  · -- a carried token counts one: it came in once and can leave once
    intro token
    have h := run_balance_le
      (m := fun ledger : PermitLedger => if ledger.carries token then 1 else 0)
      (fun ledger op => (op.step_refines ledger).token_balance token) .empty ops
    have hcount := List.nodup_iff_count_le_one.mp hfresh token
    rw [← countP_introduces] at hcount
    simp only [carries_empty, Bool.false_eq_true, if_false] at h
    unfold ledgerEvents at hcount ⊢
    omega

/-- A release replayed after it succeeded reports nothing the second time. -/
theorem occupancy_conserved_replayed :
    let ops : List LedgerOp :=
      [.setMaxJobs 1,
        .acquireAttempt "native/1" .native .reserved 0 none "t1" ⟨1000, by decide⟩,
        .releaseOwned "native/1" "t1" ⟨1001, by decide⟩,
        .releaseOwned "native/1" "t1" ⟨1002, by decide⟩]
    ((ledgerEvents .empty ops).filterMap introduced).Nodup
      ∧ (runLedger .empty ops).permits.size + (ledgerEvents .empty ops).countP isRelease
        = (ledgerEvents .empty ops).countP isGrant
      ∧ ∀ token, (ledgerEvents .empty ops).countP (releases token) ≤ 1 := by
  intro ops
  have hfresh : ((ledgerEvents .empty ops).filterMap introduced).Nodup := by decide
  exact ⟨hfresh, occupancy_conserved ops hfresh⟩

/-- The token of a holder's permit after a report, if the report can follow. -/
def LifeLabel.follow : Option Token → LifeLabel → Option (Option Token)
  | held, .internal => some held
  | none, .grant token => some (some token)
  | some _, .retoken token => some (some token)
  | some held, .release token => if held = token then some none else none
  | _, _ => none

theorem LifeStep.follow {v v' : View} {label : LifeLabel} (h : LifeStep v label v') :
    label.follow (v.permit.map Holding.token) = some (v'.permit.map Holding.token) := by
  cases h with
  | unheld | held | grant | retoken => rfl
  | release => exact if_pos rfl

/-- Over every run, from any ledger, what the calls report of one holder is a
    sequence of grants, each with any changes of its token and then the release
    of the last one before the next grant; the row has the token this leaves. -/
theorem holder_reports_follow (ledger : PermitLedger) (ops : List LedgerOp) (holder : Holder) :
    ((ledgerEvents ledger ops).map (forHolder · holder)).foldlM LifeLabel.follow
        ((ledger.holding holder).map Holding.token) =
      some (((runLedger ledger ops).holding holder).map Holding.token) := by
  induction ops generalizing ledger with
  | nil => rfl
  | cons op _ ih =>
    have hstep := (op.step_refines ledger holder).follow
    exact (congrArg (· >>= _) hstep).trans (ih (op.step ledger))

end Velnor.Control
