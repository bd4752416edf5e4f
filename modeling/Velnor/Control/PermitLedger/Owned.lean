/-
  Transactions in which an attempt token moves its own permit without giving
  it up (permit_ledger.rs): the owned transition, the recorded cleanup claim
  and the three ways to retain a permit as uncertain.

  Each has a `_commit` lemma, and a `_stale` lemma for a token that does not
  own the row.
-/
import Velnor.Control.PermitLedger.Takeover

namespace Velnor.Control

open Relational Refines

/-- Result of fencing a recorded terminal cleanup against a concurrently
    arriving acquisition. -/
inductive CleanupClaimOutcome where
  | claimed
  | closedAbsent
  | demandClosed
  | staleAttempt
  deriving DecidableEq, Repr

namespace PermitLedger

/-! ## Definitions -/

/-- State of the permit this token owns, or why it owns none. -/
def readOwnedAttemptState (db : PermitLedger) (holder : Holder) (attemptToken : Token) :
    Except LedgerError PermitState :=
  match db.permits.get? holder with
  | some row =>
    if row.attemptToken = attemptToken then .ok row.state else .error (.staleAttempt holder)
  | none =>
    -- a demand without a permit is an attempt that was released
    if (db.demands.get? holder).isSome then .error (.staleAttempt holder)
    else .error (.unknownHolder holder)

/-- The lane check where a missing demand is accepted. -/
def checkExistingDemandLane (db : PermitLedger) (holder : Holder) (lane : PermitLane) :
    Except LedgerError Unit :=
  match db.demand holder with
  | some demand => checkDemandLane holder demand lane
  | none => .ok ()

/-- The body of `transition_for_attempt`. -/
def transitionForAttemptTx (holder : Holder) (state : PermitState) (generation : Nat)
    (attemptToken : Token) (currentPid : Nat) (now : UnixTime) (db : PermitLedger) :
    TxEnd PermitLedger LedgerError Unit :=
  if db.generation ≠ generation then .fail (.staleGeneration db.generation generation)
  else
    match db.readOwnedAttemptState holder attemptToken with
    | .error error => .fail error
    | .ok currentState =>
      -- a cleanup worker's claim is final for this attempt
      if currentState = .cleaning then .commit () db
      else
        .commit ()
          (db.updateOwned holder attemptToken (fun s => s ≠ .cleaning ∨ state = .cleaning)
            (fun row =>
              { row with
                state := state
                updatedUnix := now.toI64
                generation := i64OfU64 generation
                pid := some currentPid })
            (fun _ => ⟨rfl, rfl⟩))

/-- Transition only if the permit still belongs to this exact attempt. -/
def transitionOwned (ledger : PermitLedger) (holder : Holder) (state : PermitState)
    (generation : Nat) (attemptToken : Token) (currentPid : Nat) (now : UnixTime) :
    Except LedgerError Unit × PermitLedger :=
  immediate ledger (transitionForAttemptTx holder state generation attemptToken currentPid now)

/-- Record `state` and this process on the owned row, under the current epoch. -/
def recordOwner (db : PermitLedger) (holder : Holder) (attemptToken : Token)
    (state : PermitState) (currentPid : Nat) (now : Int) : PermitLedger :=
  db.updateOwned holder attemptToken (fun _ => true)
    (fun row =>
      { row with
        state := state
        updatedUnix := now
        generation := db.permitMeta.generation
        pid := some currentPid })
    (fun _ => ⟨rfl, rfl⟩)

variable (holder : Holder) (lane : PermitLane) (attemptToken : Token)

/-- The claim on a row that exists. -/
def claimHeldCleanupTx (currentPid : Nat) (now : UnixTime) (row : PermitRow) (db : PermitLedger) :
    TxEnd PermitLedger LedgerError CleanupClaimOutcome :=
  if row.lane ≠ lane then .fail (.demandLaneMismatch holder lane row.lane)
  else
    match db.checkExistingDemandLane holder lane with
    | .error error => .fail error
    | .ok () =>
      if row.attemptToken ≠ attemptToken then .commit .staleAttempt db
      else
        .commit .claimed
          (db.recordOwner holder attemptToken .cleaning currentPid (i64OfU64 now.secs))

/-- The claim with no row left: close the demand, so that no fresh acquire
    creates a permit while local storage is released. -/
def claimAbsentCleanupTx (now : UnixTime) (db : PermitLedger) :
    TxEnd PermitLedger LedgerError CleanupClaimOutcome :=
  match db.checkExistingDemandLane holder lane with
  | .error error => .fail error
  | .ok () =>
    if (db.demand holder).any (·.state.closed) then
      -- the exact marker token may later acknowledge a cancellation
      .commit .closedAbsent
        (if lane = .native ∧ (db.demand holder).any (·.state = .cancelled) then
          { db with cleanupReleases := insert (holder, attemptToken) db.cleanupReleases }
        else db)
    else
      match db.ensureDemandTx holder lane "" now.secs now.secs .terminal with
      | .error error => .fail error
      | .ok (_, db) =>
        .commit .demandClosed (db.setDemand holder .terminal (i64OfU64 now.secs))

/-- The body of `claim_recorded_terminal_cleanup` behind its argument check. -/
def claimRecordedTerminalCleanupTx (currentPid : Nat) (now : UnixTime) (db : PermitLedger) :
    TxEnd PermitLedger LedgerError CleanupClaimOutcome :=
  match db.permits.get? holder with
  | some row => claimHeldCleanupTx holder lane attemptToken currentPid now row db
  | none => claimAbsentCleanupTx holder lane attemptToken now db

/-- Claim local cleanup for a marker whose exact job is proven terminal. -/
def claimRecordedTerminalCleanup (ledger : PermitLedger) (holder : Holder) (lane : PermitLane)
    (attemptToken : Token) (currentPid : Nat) (now : UnixTime) :
    Except LedgerError CleanupClaimOutcome × PermitLedger :=
  if attemptToken.isEmpty then (.ok .staleAttempt, ledger)
  else
    immediate ledger (claimRecordedTerminalCleanupTx holder lane attemptToken currentPid now)

/-- `UPDATE permit_demands SET state = 'terminal' ... AND state IN ('eligible', 'granted')`. -/
def terminalizeOpenDemand (db : PermitLedger) (holder : Holder) (now : Int) : PermitLedger :=
  db.setDemandWhere holder (fun s => s = .eligible ∨ s = .granted) .terminal now

/-- The permit of the retained attempt. -/
def markUncertain (db : PermitLedger) (holder : Holder) (attemptToken : Token)
    (p : PermitState → Bool) (generation : Nat) (now : Int) : PermitLedger :=
  db.updateOwned holder attemptToken p
    (fun row =>
      { row with
        state := .uncertain
        updatedUnix := now
        generation := i64OfU64 generation })
    (fun _ => ⟨rfl, rfl⟩)

/-- The body of `retain_uncertain_for_attempt`. -/
def retainUncertainForAttemptTx (holder : Holder) (generation : Nat) (attemptToken : Token)
    (now : UnixTime) (db : PermitLedger) : TxEnd PermitLedger LedgerError Unit :=
  if db.generation ≠ generation then .fail (.staleGeneration db.generation generation)
  else
    match db.readOwnedAttemptState holder attemptToken with
    | .error error => .fail error
    | .ok currentState =>
      -- do not demote an active cleanup claim or terminalize its demand
      if currentState = .cleaning then .commit () db
      else
        .commit ()
          ((db.markUncertain holder attemptToken (· ≠ .cleaning) generation
              (i64OfU64 now.secs)).terminalizeOpenDemand holder (i64OfU64 now.secs))

/-- Retain an uncertain permit only if it still belongs to this exact attempt. -/
def retainUncertainOwned (ledger : PermitLedger) (holder : Holder) (generation : Nat)
    (attemptToken : Token) (now : UnixTime) : Except LedgerError Unit × PermitLedger :=
  immediate ledger (retainUncertainForAttemptTx holder generation attemptToken now)

/-- The body of `retain_recorded_failure_uncertain_owned`: unlike the other, an
    active cleaning claim demotes. -/
def retainRecordedFailureTx (holder : Holder) (generation : Nat) (attemptToken : Token)
    (now : UnixTime) (db : PermitLedger) : TxEnd PermitLedger LedgerError Unit :=
  if db.generation ≠ generation then .fail (.staleGeneration db.generation generation)
  else
    match db.readOwnedAttemptState holder attemptToken with
    | .error error => .fail error
    | .ok _ =>
      .commit ()
        ((db.markUncertain holder attemptToken (fun _ => true) generation
            (i64OfU64 now.secs)).terminalizeOpenDemand holder (i64OfU64 now.secs))

/-- Record a cleanup failure the owning lane already journaled. -/
def retainRecordedFailureUncertainOwned (ledger : PermitLedger) (holder : Holder)
    (generation : Nat) (attemptToken : Token) (now : UnixTime) :
    Except LedgerError Unit × PermitLedger :=
  immediate ledger (retainRecordedFailureTx holder generation attemptToken now)

/-- The body of `retain_uncertain_after_cleanup_owned` behind its argument
    check. -/
def retainUncertainAfterCleanupTx (holder : Holder) (attemptToken : Token) (currentPid : Nat)
    (now : UnixTime) (db : PermitLedger) : TxEnd PermitLedger LedgerError Unit :=
  match db.permits.get? holder with
  | none => .fail (.staleAttempt holder)
  | some row =>
    if row.lane ≠ .native then .fail (.demandLaneMismatch holder .native row.lane)
    else if row.attemptToken ≠ attemptToken then .fail (.staleAttempt holder)
    else
      match (db.recordOwner holder attemptToken .uncertain currentPid
          (i64OfU64 now.secs)).ensureDemandTx holder .native "" now.secs now.secs .granted with
      | .error error => .fail error
      | .ok (_, db) =>
        .commit () (db.setDemandWhere holder (· ≠ .cancelled) .terminal (i64OfU64 now.secs))

/-- Finish confirmed local cleanup while preserving a Native permit for
    service-response recovery. -/
def retainUncertainAfterCleanupOwned (ledger : PermitLedger) (holder : Holder)
    (attemptToken : Token) (currentPid : Nat) (now : UnixTime) :
    Except LedgerError Unit × PermitLedger :=
  if attemptToken.isEmpty then (.error (.staleAttempt holder), ledger)
  else immediate ledger (retainUncertainAfterCleanupTx holder attemptToken currentPid now)

/-! ## Refinement -/

variable (db : PermitLedger) (holder : Holder) (token : Token)

theorem view_updateOwned (p : PermitState → Bool) {f : PermitRow → PermitRow}
    (hf : ∀ row, (f row).holder = row.holder ∧ (f row).attemptToken = row.attemptToken)
    (hlane : ∀ row, (f row).lane = row.lane) (k : Holder) :
    (db.updateOwned holder token p f hf).view k = db.view k := by
  rw [view, view, holding_updateOwned _ _ _ _ hf hlane]
  rfl

theorem view_recordOwner (state : PermitState) (pid : Nat) (now : Int) (k : Holder) :
    (db.recordOwner holder token state pid now).view k = db.view k := by
  refine view_updateOwned db holder token _ _ ?_ k
  exact fun _ => rfl

variable {holder lane} {generation pid : Nat} {token : Token} {now : UnixTime}
  {db db' : PermitLedger} {out : Unit}

/-- What a committed call of the owner did: its row carries `token`, and nothing
    moved that a view shows but the holder's demand. -/
structure OwnerCommit (holder : Holder) (token : Token) (db db' : PermitLedger) : Prop
    extends Moves (some holder) .internal db db' where
  owner : ∃ row, db.permits.get? holder = some row ∧ row.attemptToken = token

theorem owner_of_readOwnedAttemptState {state : PermitState}
    (h : db.readOwnedAttemptState holder token = .ok state) :
    ∃ row, db.permits.get? holder = some row ∧ row.attemptToken = token ∧ row.state = state := by
  unfold readOwnedAttemptState at h
  repeat' split at h
  all_goals cases h
  exact ⟨_, ‹_›, ‹_›, rfl⟩

/-- A fenced owner either found an active cleanup claim or made its update. -/
theorem transitionForAttemptTx_commit {state : PermitState}
    (h : transitionForAttemptTx holder state generation token pid now db = .commit out db') :
    db.generation = generation ∧ OwnerCommit holder token db db'
      ∧ (db' = db ∨ ∃ row, db.permits.get? holder = some row ∧ row.state ≠ .cleaning) := by
  unfold transitionForAttemptTx at h
  repeat' split at h
  all_goals cases h
  all_goals
    rename_i hgen _ _ hread hcleaning
    obtain ⟨row, hrow, htoken, rfl⟩ := owner_of_readOwnedAttemptState hread
    refine ⟨not_not.mp hgen, ⟨?_, row, hrow, htoken⟩, ?_⟩
  · exact .refl ..
  · exact .inl rfl
  · refine ⟨.updateOwned .., ?_⟩
    refine of_view_eq (fun k => ?_) (refl _)
    refine view_updateOwned db holder token _ _ ?_ k
    exact fun _ => rfl
  · exact .inr ⟨row, hrow, hcleaning⟩

/-- A retained permit stays; its demand, if still open, closes. -/
theorem moves_retain (db : PermitLedger) (holder : Holder) (token : Token)
    (p : PermitState → Bool) (generation : Nat) (now : Int) :
    Moves (some holder) .internal db
      ((db.markUncertain holder token p generation now).terminalizeOpenDemand holder now) :=
  ⟨(Touches.updateOwned ..).trans (.setDemandWhere ..),
    of_view_eq (by exact view_updateOwned db holder token p _ fun _ => rfl)
      (close_demand _ holder _ rfl now)⟩

theorem retainUncertainForAttemptTx_commit
    (h : retainUncertainForAttemptTx holder generation token now db = .commit out db') :
    db.generation = generation ∧ OwnerCommit holder token db db'
      ∧ (db' = db ∨ ∃ row, db.permits.get? holder = some row ∧ row.state ≠ .cleaning) := by
  unfold retainUncertainForAttemptTx at h
  repeat' split at h
  all_goals cases h
  all_goals
    rename_i hgen _ _ hread hcleaning
    obtain ⟨row, hrow, htoken, rfl⟩ := owner_of_readOwnedAttemptState hread
    refine ⟨not_not.mp hgen, ⟨?_, row, hrow, htoken⟩, ?_⟩
  · exact .refl ..
  · exact .inl rfl
  · exact moves_retain ..
  · exact .inr ⟨row, hrow, hcleaning⟩

theorem retainRecordedFailureTx_commit
    (h : retainRecordedFailureTx holder generation token now db = .commit out db') :
    db.generation = generation ∧ OwnerCommit holder token db db' := by
  unfold retainRecordedFailureTx at h
  repeat' split at h
  all_goals cases h
  rename_i hgen _ _ hread
  obtain ⟨row, hrow, htoken, -⟩ := owner_of_readOwnedAttemptState hread
  exact ⟨not_not.mp hgen, moves_retain .., row, hrow, htoken⟩

theorem retainUncertainAfterCleanupTx_commit
    (h : retainUncertainAfterCleanupTx holder token pid now db = .commit out db') :
    OwnerCommit holder token db db' := by
  unfold retainUncertainAfterCleanupTx at h
  repeat' split at h
  all_goals cases h
  rename_i row hrow hlane htoken _ demand _ hens
  have hnative := not_not.mp hlane
  have hE := ensureDemandTx_ok hens
  refine ⟨⟨?_, ?_⟩, row, hrow, not_not.mp htoken⟩
  · exact ((Touches.updateOwned ..).trans (touches_ensureDemandTx hens)).trans (.setDemandWhere ..)
  refine of_view_eq (view_recordOwner db holder token .uncertain pid (i64OfU64 now.secs)) ?_
  have hheld : (db.recordOwner holder token .uncertain pid (i64OfU64 now.secs)).holding
      holder = some ⟨row.lane, row.attemptToken⟩ :=
    (congrArg View.permit (view_recordOwner db holder token _ pid _ holder)).trans
      (holding_of_get? hrow)
  refine on_demand holder (fun k => hE.holding k) (fun k hk => ?_) ?_ ?_
  · rw [queued_setDemandWhere, if_neg hk, hE.queued_ne hk]
  · intro hnone
    rw [hheld] at hnone
    cases hnone
  · intro _ hq
    cases hheld.symm.trans hq
    rw [queued_setDemandWhere, if_pos rfl, hE.after, hnative, Option.map_some]
    rcases hE.queued_before with hb | ⟨hb, hstate⟩
    · rw [hb]
      by_cases hc : demand.state = .cancelled
      · simpa [hc] using Settle.same _
      · simpa [hc] using Settle.close .native demand.state rfl
    · rw [hb, hstate]
      exact .record (.inr rfl)

theorem claimHeldCleanupTx_commit {row : PermitRow} {out : CleanupClaimOutcome}
    (h : claimHeldCleanupTx holder lane token pid now row db = .commit out db') :
    (row.attemptToken ≠ token ∧ db' = db)
      ∨ (row.attemptToken = token
        ∧ db' = db.recordOwner holder token .cleaning pid (i64OfU64 now.secs)) := by
  unfold claimHeldCleanupTx at h
  repeat' split at h
  all_goals cases h
  · rename_i htoken
    exact .inl ⟨htoken, rfl⟩
  · rename_i htoken
    exact .inr ⟨not_not.mp htoken, rfl⟩

theorem claimAbsentCleanupTx_commit {out : CleanupClaimOutcome}
    (hnone : db.permits.get? holder = none)
    (h : claimAbsentCleanupTx holder lane token now db = .commit out db') :
    Moves (some holder) .internal db db' := by
  unfold claimAbsentCleanupTx at h
  repeat' split at h
  all_goals cases h
  · exact ⟨.of_tables rfl rfl rfl, of_tables rfl rfl⟩
  · exact .refl ..
  · rename_i demand _ hens
    have hE := ensureDemandTx_ok hens
    refine ⟨(touches_ensureDemandTx hens).trans (.setDemandWhere ..), ?_⟩
    refine on_demand holder (fun k => hE.holding k) (fun k hk => ?_) (fun _ => ?_) ?_
    · rw [queued_setDemand, if_neg hk, hE.queued_ne hk]
    · rw [queued_setDemand, if_pos rfl, hE.after, Option.map_some]
      rcases hE.queued_before with hb | ⟨hb, -⟩
      · rw [hb]
        exact .close lane demand.state rfl
      · rw [hb]
        exact .enterClosed lane rfl
    · intro _ hp
      rw [db.holding_eq_none_iff.mpr hnone] at hp
      cases hp

theorem claimRecordedTerminalCleanupTx_commit {out : CleanupClaimOutcome}
    (h : claimRecordedTerminalCleanupTx holder lane token pid now db = .commit out db') :
    Moves (some holder) .internal db db' := by
  unfold claimRecordedTerminalCleanupTx at h
  split at h
  · rcases claimHeldCleanupTx_commit h with ⟨-, rfl⟩ | ⟨-, rfl⟩
    · exact .refl ..
    · exact ⟨.updateOwned .., of_view_eq (view_recordOwner _ _ _ _ _ _) (refl _)⟩
  · rename_i hnone
    exact claimAbsentCleanupTx_commit hnone h

/-! ## A token that does not own the row -/

section Stale

variable {ledger : PermitLedger} {row : PermitRow}

section

variable (hrow : ledger.permits.get? holder = some row) (hne : row.attemptToken ≠ token)
include hrow hne

/-- A transaction that commits only for the owner of the row does nothing for
    another token. -/
theorem immediate_stale {α : Type} {body : PermitLedger → TxEnd PermitLedger LedgerError α}
    (h : ∀ value db', body ledger = .commit value db' → OwnerCommit holder token ledger db') :
    (immediate ledger body).2 = ledger := by
  refine immediate_unchanged fun value db' hbody => ?_
  obtain ⟨_, hrow', htoken⟩ := (h value db' hbody).owner
  cases hrow.symm.trans hrow'
  exact absurd htoken hne

theorem retainUncertainAfterCleanupOwned_stale (pid : Nat) (now : UnixTime) :
    (ledger.retainUncertainAfterCleanupOwned holder token pid now).2 = ledger := by
  unfold retainUncertainAfterCleanupOwned
  split
  · rfl
  · exact immediate_stale hrow hne fun _ _ hbody => retainUncertainAfterCleanupTx_commit hbody

theorem claimRecordedTerminalCleanup_stale (lane : PermitLane) (pid : Nat) (now : UnixTime) :
    (ledger.claimRecordedTerminalCleanup holder lane token pid now).2 = ledger := by
  unfold claimRecordedTerminalCleanup
  split
  · rfl
  refine immediate_unchanged fun _ db' hbody => ?_
  simp only [claimRecordedTerminalCleanupTx, hrow] at hbody
  rcases claimHeldCleanupTx_commit hbody with ⟨-, rfl⟩ | ⟨htoken, -⟩
  · rfl
  · exact absurd htoken hne

end

end Stale

end PermitLedger

end Velnor.Control
