/-
  The two fences of the ledger.  The attempt token: a call that names a token
  other than the one on the row changes neither the row nor its demand.  The
  generation: a call made under another epoch changes nothing, and capacity is
  advertised only after a reconcile of the current epoch.
-/
import Velnor.Control.PermitLedger.Safety

namespace Velnor.Control

open Relational LedgerOp List PermitLedger

/-! ## The attempt token -/

variable {holder : Holder} {generation : Nat} {op : LedgerOp} {ledger : PermitLedger}

namespace PermitLedger

/-- An acquire never changes the row of a holder that has one. -/
theorem acquireAttemptWithToken_held {row : PermitRow}
    (hrow : ledger.permits.get? holder = some row) (lane : PermitLane) (state : PermitState)
    (generation : Nat) (pid : Option Nat) (staged : Option Token) (uuid : Token) (now : UnixTime) :
    (ledger.acquireAttemptWithToken holder lane state generation pid staged uuid now).2
      = ledger := by
  refine immediate_unchanged fun out db' hbody => ?_
  obtain ⟨-, ⟨_, -, rfl⟩ | ⟨hnone, -⟩⟩ := acquireAttemptTx_commit hbody
  · rfl
  · cases hrow.symm.trans hnone

end PermitLedger

namespace LedgerOp

/-- A token-bearing call for `holder` that names only tokens other than
    `current`.  A rotation names its target and its previous token, which for
    `none` is the one the legacy migration recorded. -/
def StaleFor (ledger : PermitLedger) (holder : Holder) (current : Token) : LedgerOp → Prop
  | .acquireScalesetAttempt h _ _ _ token _
  | .claimRecordedTerminalCleanup h _ token _ _
  | .transitionOwned h _ _ token _ _
  | .retainUncertainOwned h _ token _
  | .retainRecordedFailureUncertainOwned h _ token _
  | .retainUncertainAfterCleanupOwned h token _ _
  | .releaseOwned h token _
  | .releaseToEligibleOwned h token _
  | .releaseCancelledOwned h token _
  | .releaseNativeTerminalOwned h token _
  | .releaseNativeCancelledOwned h token _
  | .releaseScalesetStagedOwned h token _ _ => h = holder ∧ token ≠ current
  | .rotateScalesetAttempt h _ _ _ previousToken targetToken _ _ _ =>
    h = holder ∧ targetToken ≠ current
      ∧ ledger.previousTokenMatches holder current previousToken = false
  | _ => False

open PermitLedger in
/-- A call that names other tokens changes nothing, or only forgets a cleanup
    marker of its own. -/
theorem step_of_staleFor {permit : PermitRow} (hpermit : ledger.permits.get? holder = some permit)
    (hstale : op.StaleFor ledger holder permit.attemptToken) :
    op.step ledger = ledger
      ∨ ∃ token, op.step ledger = ledger.forgetCleanupRelease holder token := by
  cases op with
  | acquireScalesetAttempt h state generation pid token now =>
    obtain ⟨rfl, -⟩ := hstale
    left
    rcases ledger.acquireScalesetAttemptWithToken_cases h state generation pid token now
      with hstep | hstep <;> rw [step, hstep]
    exact acquireAttemptWithToken_held hpermit ..
  | claimRecordedTerminalCleanup =>
    obtain ⟨rfl, hne⟩ := hstale
    exact .inl (claimRecordedTerminalCleanup_stale hpermit hne.symm ..)
  | transitionOwned =>
    obtain ⟨rfl, hne⟩ := hstale
    exact .inl (immediate_stale hpermit hne.symm fun _ _ hbody =>
      (transitionForAttemptTx_commit hbody).2.1)
  | retainUncertainOwned =>
    obtain ⟨rfl, hne⟩ := hstale
    exact .inl (immediate_stale hpermit hne.symm fun _ _ hbody =>
      (retainUncertainForAttemptTx_commit hbody).2.1)
  | retainRecordedFailureUncertainOwned =>
    obtain ⟨rfl, hne⟩ := hstale
    exact .inl (immediate_stale hpermit hne.symm fun _ _ hbody =>
      (retainRecordedFailureTx_commit hbody).2)
  | retainUncertainAfterCleanupOwned =>
    obtain ⟨rfl, hne⟩ := hstale
    exact .inl (retainUncertainAfterCleanupOwned_stale hpermit hne.symm ..)
  | releaseOwned | releaseToEligibleOwned | releaseCancelledOwned =>
    obtain ⟨rfl, hne⟩ := hstale
    exact .inl (releaseWithDemandState_stale hpermit hne.symm ..)
  | releaseNativeTerminalOwned h token | releaseNativeCancelledOwned h token =>
    obtain ⟨rfl, hne⟩ := hstale
    exact (releaseNativeOwnedWithTerminalDemand_stale hpermit hne.symm ..).imp_right fun h =>
      ⟨token, h⟩
  | releaseScalesetStagedOwned =>
    obtain ⟨rfl, hne⟩ := hstale
    exact .inl (releaseScalesetStagedOwned_stale hpermit hne.symm ..)
  | rotateScalesetAttempt =>
    -- at most it finds its own target there already
    obtain ⟨rfl, -, hprevious⟩ := hstale
    left
    rw [step, rotateScalesetAttemptForRecovery]
    split
    · rfl
    refine immediate_unchanged fun out db' hbody => ?_
    obtain ⟨-, _, hrow, ⟨-, -, rfl⟩ | ⟨-, -, -, -, hmatch, -⟩⟩ :=
      rotateScalesetAttemptTx_commit hbody
    · rfl
    · cases hpermit.symm.trans hrow
      cases hprevious.symm.trans hmatch
  | observeDemand | parkDemand | cancelDemand | acquireAttempt | adoptForRedelivery | reconcile
  | beginEpoch | setMaxJobs | setMaxJobsIfUnset | claimScalesetRecovery
  | releaseScalesetRecovery => exact hstale.elim

end LedgerOp

/-- While a holder's row carries one token, no call that names another changes
    the row or the holder's demand. -/
theorem stale_token_changes_no_row (ledger : PermitLedger) (holder : Holder) (permit : PermitRow)
    (hpermit : ledger.permits.get? holder = some permit) (op : LedgerOp)
    (hstale : op.StaleFor ledger holder permit.attemptToken) :
    (op.step ledger).permits.get? holder = some permit
      ∧ (op.step ledger).demands.get? holder = ledger.demands.get? holder := by
  obtain h | ⟨_, h⟩ := step_of_staleFor hpermit hstale <;> rw [h]
  · exact ⟨hpermit, rfl⟩
  · exact ⟨hpermit, rfl⟩

/-- A superseded worker releasing under the token it lost to an adoption. -/
theorem stale_token_changes_no_row_after_adoption :
    let ledger := runLedger .empty
      [.setMaxJobs 1,
        .acquireAttempt "native/1" .native .running 0 (some 11) "t1" ⟨1000, by decide⟩,
        .adoptForRedelivery "native/1" .native .running 0 12 (fun _ => false) "t2"
          ⟨1001, by decide⟩]
    let op := LedgerOp.releaseOwned "native/1" "t1" ⟨1002, by decide⟩
    let permit : PermitRow :=
      { holder := "native/1", lane := .native, state := .running, acquiredUnix := 1000,
        updatedUnix := 1001, generation := 0, pid := some 12, attemptToken := "t2",
        recoveryClaimToken := none, recoveryPreviousPid := none, recoveryPreviousToken := none }
    ledger.permits.get? "native/1" = some permit
      ∧ (op.step ledger).permits.get? "native/1" = some permit
      ∧ (op.step ledger).demands.get? "native/1" = ledger.demands.get? "native/1" := by
  intro ledger op permit
  have hpermit : ledger.permits.get? "native/1" = some permit := by decide
  exact ⟨hpermit, stale_token_changes_no_row ledger "native/1" permit hpermit op ⟨rfl, by decide⟩⟩

/-! ## The generation -/

namespace LedgerOp

/-- The generation a fenced call was made under. -/
def fencedOn : LedgerOp → Option Nat
  | .acquireAttempt _ _ _ generation _ _ _
  | .acquireScalesetAttempt _ _ generation _ _ _
  | .adoptForRedelivery _ _ _ generation _ _ _ _
  | .rotateScalesetAttempt _ _ generation _ _ _ _ _ _
  | .transitionOwned _ _ generation _ _ _
  | .retainUncertainOwned _ generation _ _
  | .retainRecordedFailureUncertainOwned _ generation _ _ => some generation
  | _ => none

theorem acquire_of_stale_generation (hne : generation ≠ ledger.generation) (holder : Holder)
    (lane : PermitLane) (state : PermitState) (pid : Option Nat) (staged : Option Token)
    (uuid : Token) (now : UnixTime) :
    (ledger.acquireAttemptWithToken holder lane state generation pid staged uuid now).2 = ledger :=
  immediate_unchanged fun _ _ hbody =>
    absurd (acquireAttemptTx_commit hbody).1.symm hne

open PermitLedger in
/-- A call fenced on another generation changes nothing. -/
theorem step_of_stale_generation (hop : op.fencedOn = some generation)
    (hne : generation ≠ ledger.generation) : op.step ledger = ledger := by
  have hfenced : ∀ {α} {body : PermitLedger → TxEnd PermitLedger LedgerError α},
      (∀ value db', body ledger = .commit value db' → ledger.generation = generation) →
      (immediate ledger body).2 = ledger :=
    fun h => immediate_unchanged fun _ _ hbody => absurd (h _ _ hbody).symm hne
  cases op with
  | acquireAttempt =>
    cases hop
    exact acquire_of_stale_generation hne ..
  | acquireScalesetAttempt holder state g pid token now =>
    obtain rfl := Option.some.inj hop
    rcases ledger.acquireScalesetAttemptWithToken_cases holder state g pid token now
      with hstep | hstep <;> rw [step, hstep]
    exact acquire_of_stale_generation hne ..
  | rotateScalesetAttempt =>
    cases hop
    rw [step, rotateScalesetAttemptForRecovery]
    split
    · rfl
    refine immediate_unchanged fun _ _ hbody => ?_
    -- a replayed rotation may be of an earlier generation, and changes nothing
    obtain ⟨-, _, -, ⟨-, -, rfl⟩ | ⟨-, -, hgen, -⟩⟩ := rotateScalesetAttemptTx_commit hbody
    · rfl
    · exact absurd hgen.symm hne
  | adoptForRedelivery =>
    cases hop
    exact hfenced fun _ _ hbody => (adoptForRedeliveryTx_commit hbody).1
  | transitionOwned =>
    cases hop
    exact hfenced fun _ _ hbody => (transitionForAttemptTx_commit hbody).1
  | retainUncertainOwned =>
    cases hop
    exact hfenced fun _ _ hbody => (retainUncertainForAttemptTx_commit hbody).1
  | retainRecordedFailureUncertainOwned =>
    cases hop
    exact hfenced fun _ _ hbody => (retainRecordedFailureTx_commit hbody).1
  | _ => cases hop

def isBeginEpoch : LedgerOp → Bool
  | .beginEpoch => true
  | _ => false

/-- The call is a reconcile that succeeds. -/
def reconciles (ledger : PermitLedger) : LedgerOp → Bool
  | .reconcile alive rotations releases acquisitions now =>
    match (ledger.reconcileAttemptsWithStagedAcquisitions alive rotations releases acquisitions
      now).1 with
    | .ok _ => true
    | .error _ => false
  | _ => false

/-- Below the last generation an epoch adds one to it, and nothing else. -/
theorem step_of_isBeginEpoch (hop : op.isBeginEpoch = true)
    (hroom : ledger.permitMeta.generation < i64Max) :
    op.step ledger = { ledger with
      permitMeta :=
        { ledger.permitMeta with generation := ledger.permitMeta.generation + 1 } } := by
  cases op with
  | beginEpoch =>
    have hnext : min (ledger.permitMeta.generation + 1) i64Max
        = ledger.permitMeta.generation + 1 := by omega
    rw [← hnext]
    rfl
  | _ => cases hop

/-- Outside the two of them an epoch and its mark stay as they are. -/
theorem step_epoch (hepoch : op.isBeginEpoch = false) (hreconcile : op.reconciles ledger = false) :
    (op.step ledger).permitMeta.generation = ledger.permitMeta.generation
      ∧ (op.step ledger).permitMeta.reconciledGeneration
        = ledger.permitMeta.reconciledGeneration := by
  cases op with
  | beginEpoch => cases hepoch
  | setMaxJobs => exact ⟨rfl, rfl⟩
  | setMaxJobsIfUnset n =>
    rcases ledger.setMaxJobsIfUnset_cases n with hstep | hstep <;> rw [step, hstep]
    · exact ⟨rfl, rfl⟩
    · exact ⟨rfl, rfl⟩
  | reconcile alive rotations releases acquisitions now =>
    cases hout : (ledger.reconcileAttemptsWithStagedAcquisitions alive rotations releases
        acquisitions now).1 with
    | ok _ => simp only [reconciles, hout, Bool.true_eq_false] at hreconcile
    | error =>
      have hstep := immediate_error hout
      rw [step]
      rw [reconcileAttemptsWithStagedAcquisitions, hstep]
      exact ⟨rfl, rfl⟩
  | _ =>
    rw [step_permitMeta ledger rfl]
    exact ⟨rfl, rfl⟩

/-- The step starts an epoch only while the generation can still be bumped. -/
def BumpsEpoch (ledger : PermitLedger) (op : LedgerOp) : Prop :=
  op.isBeginEpoch = true → ledger.permitMeta.generation < i64Max

instance (ledger : PermitLedger) (op : LedgerOp) : Decidable (op.BumpsEpoch ledger) :=
  inferInstanceAs (Decidable (_ → _))

end LedgerOp

/-- A reconcile of the run succeeded and no later step began an epoch. -/
def ReconciledSinceEpoch (start : PermitLedger) (ops : List LedgerOp) : Prop :=
  ∃ before op after, ops = before ++ op :: after
    ∧ op.reconciles (runLedger start before) = true
    ∧ ∀ later ∈ after, later.isBeginEpoch = false

theorem ReconciledSinceEpoch.snoc {start : PermitLedger} {ops : List LedgerOp}
    (h : ReconciledSinceEpoch start ops) (hop : op.isBeginEpoch = false) :
    ReconciledSinceEpoch start (ops ++ [op]) := by
  obtain ⟨before, rec, after, rfl, hrec, hafter⟩ := h
  refine ⟨before, rec, after ++ [op], by simp, hrec, ?_⟩
  exact forall_mem_append.mpr ⟨hafter, forall_mem_singleton.mpr hop⟩

theorem LedgerOp.step_of_reconciles (h : op.reconciles ledger = true) :
    op.isBeginEpoch = false
      ∧ (op.step ledger).permitMeta
        = { ledger.permitMeta with reconciledGeneration := ledger.permitMeta.generation } := by
  cases op with
  | reconcile alive rotations releases acquisitions now =>
    refine ⟨rfl, ?_⟩
    cases hout : (ledger.reconcileAttemptsWithStagedAcquisitions alive rotations releases
        acquisitions now).1 with
    | error => simp only [reconciles, hout, Bool.false_eq_true] at h
    | ok _ =>
      obtain ⟨db', hbody, hdb⟩ := commit_of_immediate_ok hout fun _ => reconcileTx_not_drop
      have hstep : (reconcile alive rotations releases acquisitions now).step ledger = db' := hdb
      rw [hstep, reconcileTx_permitMeta hbody]
  | _ => cases h

/-- The mark never runs ahead of the generation, and reaches it only through a
    reconcile of the current epoch. -/
theorem epoch_invariant (ops : List LedgerOp)
    (hbump : Along step (fun ledger op => op.BumpsEpoch ledger) .empty ops) :
    (runLedger .empty ops).permitMeta.reconciledGeneration
        ≤ (runLedger .empty ops).permitMeta.generation
      ∧ ((runLedger .empty ops).permitMeta.generation
          = (runLedger .empty ops).permitMeta.reconciledGeneration →
        ReconciledSinceEpoch .empty ops) := by
  induction ops using reverseRecOn with
  | nil => exact ⟨by decide, fun h => absurd h (by decide)⟩
  | append_singleton ops op ih =>
    obtain ⟨hbefore, hop, -⟩ := along_append.mp hbump
    obtain ⟨hle, hmark⟩ := ih hbefore
    have hrun : runLedger .empty (ops ++ [op]) = op.step (runLedger .empty ops) :=
      run_append _ _ ops [op]
    rw [hrun]
    by_cases hepoch : op.isBeginEpoch = true
    · -- a bump leaves the mark behind
      have hroom : (runLedger .empty ops).permitMeta.generation < i64Max := hop hepoch
      rw [step_of_isBeginEpoch hepoch hroom]
      dsimp only
      exact ⟨by omega, fun h => by omega⟩
    · have hepoch' : op.isBeginEpoch = false := by simpa using hepoch
      cases hrec : op.reconciles (runLedger .empty ops) with
      | true =>
        obtain ⟨-, hmeta⟩ := step_of_reconciles hrec
        rw [hmeta]
        exact ⟨le_refl _, fun _ => ⟨ops, op, [], by simp, hrec, by simp⟩⟩
      | false =>
        obtain ⟨hgen, hrecg⟩ := step_epoch hepoch' hrec
        rw [hgen, hrecg]
        exact ⟨hle, fun h => (hmark h).snoc hepoch'⟩

/-- What a number advertised says. -/
theorem PermitLedger.advertisedFree_eq_some {free : Nat} (h : ledger.advertisedFree = some free) :
    ledger.permitMeta.generation = ledger.permitMeta.reconciledGeneration
      ∧ ∃ max, ledger.maxJobs = some max ∧ free = max - ledger.permits.size := by
  unfold advertisedFree at h
  split at h
  · rename_i hrec
    refine ⟨by simpa [reconciled] using hrec, ?_⟩
    split at h
    · cases h
    rename_i max hmax
    cases h
    refine ⟨max, hmax, ?_⟩
    have hfits := maxJobs_le hmax
    unfold occupied
    omega
  · cases h

/-- As long as no epoch begins at the last generation, a number is advertised
    only after a reconcile since the most recent `begin_epoch`, and it is `N`
    less the count; and a call fenced on another generation changes nothing. -/
theorem advertised_only_after_reconcile (ops : List LedgerOp)
    (hbump : Along LedgerOp.step (fun ledger op => op.BumpsEpoch ledger) .empty ops) :
    let ledger := runLedger .empty ops
    (∀ free, ledger.advertisedFree = some free →
        ReconciledSinceEpoch .empty ops
          ∧ ∃ max, ledger.maxJobs = some max ∧ free = max - ledger.permits.size)
      ∧ ∀ op : LedgerOp, ∀ generation, op.fencedOn = some generation →
          generation ≠ ledger.generation → op.step ledger = ledger := by
  refine ⟨fun free hfree => ?_, fun op generation hop hne =>
    step_of_stale_generation hop hne⟩
  obtain ⟨hreconciled, hmax⟩ := advertisedFree_eq_some hfree
  exact ⟨(epoch_invariant ops hbump).2 hreconciled, hmax⟩

/-- One epoch, reconciled, with one permit of two taken. -/
theorem advertised_only_after_reconcile_one_taken :
    let ops : List LedgerOp :=
      [.setMaxJobs 2, .beginEpoch,
        .acquireAttempt "native/1" .native .running 1 none "t1" ⟨1000, by decide⟩,
        .reconcile [⟨"native/1", .native, "t1"⟩] [] [] [] ⟨1001, by decide⟩]
    (runLedger .empty ops).advertisedFree = some 1 ∧ ReconciledSinceEpoch .empty ops := by
  intro ops
  have hfree : (runLedger .empty ops).advertisedFree = some 1 := by decide
  exact ⟨hfree, ((advertised_only_after_reconcile ops (by decide)).1 1 hfree).1⟩

/-! ### At the last generation -/

theorem runLedger_beginEpochs (ledger : PermitLedger) (n : Nat)
    (h : ledger.permitMeta.generation + n ≤ i64Max) :
    runLedger ledger (replicate n .beginEpoch)
      = { ledger with
          permitMeta :=
            { ledger.permitMeta with generation := ledger.permitMeta.generation + n } } := by
  induction n generalizing ledger with
  | zero => simp [runLedger]
  | succ n ih =>
    -- one epoch, and `n` more from there
    have hroom : ledger.permitMeta.generation < i64Max := by omega
    have hepoch : beginEpoch.isBeginEpoch = true := rfl
    have hstep := step_of_isBeginEpoch hepoch hroom
    have hrest := ih (beginEpoch.step ledger) (by
      rw [hstep]
      dsimp only
      omega)
    rw [hstep] at hrest
    show runLedger (beginEpoch.step ledger) (replicate n .beginEpoch) = _
    rw [hstep, hrest]
    push_cast
    simp only [Int.add_assoc, Int.add_comm 1]

/-- A run that ends by beginning an epoch has not reconciled it. -/
theorem not_reconciledSinceEpoch_beginEpoch (start : PermitLedger) (ops : List LedgerOp) :
    ¬ ReconciledSinceEpoch start (ops ++ [.beginEpoch]) := by
  rintro ⟨_, _, after, hops, hrec, hafter⟩
  rcases eq_nil_or_concat' after with rfl | ⟨_, last, rfl⟩
  · obtain ⟨-, hop⟩ := append_inj' hops rfl
    rw [← singleton_inj.mp hop] at hrec
    cases hrec
  · rw [← cons_append, ← append_assoc] at hops
    obtain ⟨-, hlast⟩ := append_inj' hops rfl
    have hfalse := hafter last (by simp)
    rw [← singleton_inj.mp hlast] at hfalse
    cases hfalse

/-- `n` epochs that reach the last generation, a reconcile of nothing, and one
    more `begin_epoch`, which leaves the generation where it is. -/
theorem advertisedFree_of_saturated {n : Nat} (hn : (n : Int) = i64Max) (now : UnixTime) :
    (runLedger .empty (.setMaxJobs 1 :: (replicate n .beginEpoch
        ++ [.reconcile [] [] [] [] now, .beginEpoch]))).advertisedFree = some 1 := by
  have hepochs := runLedger_beginEpochs ((setMaxJobs 1).step .empty) n (by
    rw [hn]
    decide)
  have hrun : runLedger .empty (.setMaxJobs 1 :: (replicate n .beginEpoch
        ++ [.reconcile [] [] [] [] now, .beginEpoch]))
      = runLedger
          (runLedger ((setMaxJobs 1).step .empty) (replicate n .beginEpoch))
          [.reconcile [] [] [] [] now, .beginEpoch] :=
    run_append step _ (replicate n beginEpoch) _
  rw [hrun, hepochs, hn]
  rfl

/-- `begin_epoch` at generation `i64::MAX` saturates: the epoch reconciled
    before it still counts, and capacity is advertised with no reconcile since. -/
theorem saturated_epoch_still_advertises :
    let ops : List LedgerOp :=
      .setMaxJobs 1 :: (replicate (2 ^ 63 - 1) .beginEpoch
        ++ [.reconcile [] [] [] [] ⟨1000, by decide⟩, .beginEpoch])
    (runLedger .empty ops).advertisedFree = some 1 ∧ ¬ ReconciledSinceEpoch .empty ops := by
  have hlast (n : Nat) (now : UnixTime) :
      ¬ ReconciledSinceEpoch .empty (.setMaxJobs 1 :: (replicate n .beginEpoch
        ++ [.reconcile [] [] [] [] now, .beginEpoch])) := by
    have hops := not_reconciledSinceEpoch_beginEpoch .empty
      (.setMaxJobs 1 :: (replicate n .beginEpoch ++ [.reconcile [] [] [] [] now]))
    rwa [cons_append, append_assoc] at hops
  exact ⟨advertisedFree_of_saturated (by decide) _, hlast _ _⟩

end Velnor.Control
