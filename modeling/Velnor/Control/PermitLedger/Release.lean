/-
  The owned releases (permit_ledger.rs): the plain ones, which delete the row
  and move the demand to a target, the Native ones, whose absent-row answer
  consults the recorded cleanup markers, and the staged Scale Set release,
  whose absent-row answer is the proof a replay relies on.

  A release is the only transaction that deletes a permit row.
-/
import Velnor.Control.PermitLedger.Owned

namespace Velnor.Control

open Relational Option

/-- Atomic result of releasing one token-owned permit attempt. -/
inductive OwnedReleaseOutcome where
  | released
  | alreadyAbsent
  | staleAttempt
  deriving DecidableEq, Repr

namespace PermitLedger

/-! ## Plain owned releases -/

/-- The demand side of `release_with_demand_state`. -/
def dischargeDemand (db : PermitLedger) (holder : Holder) (nextDemandState : DemandState)
    (now : Int) : PermitLedger :=
  match nextDemandState with
  | .terminal | .cancelled => db.setDemand holder nextDemandState now
  -- never revive work that has already been closed
  | .eligible => db.setDemandWhere holder (fun s => s = .eligible ∨ s = .granted) .eligible now
  | .granted | .waiting => db

/-- The body of `release_with_demand_state`. -/
def releaseWithDemandStateTx (holder : Holder) (nextDemandState : DemandState)
    (attemptToken : Token) (now : UnixTime) (db : PermitLedger) :
    TxEnd PermitLedger LedgerError Bool :=
  let removed := db.permits.changed holder fun row => row.attemptToken = attemptToken
  -- another attempt owns the holder, or none: its demand is not touched
  if removed = 0 then .commit false db
  else
    .commit (0 < removed)
      ((db.deleteOwned holder attemptToken).dischargeDemand holder nextDemandState
        (i64OfU64 now.secs))

variable (ledger : PermitLedger) (holder : Holder)

def releaseWithDemandState (nextDemandState : DemandState) (attemptToken : Token) (now : UnixTime) :
    Except LedgerError Bool × PermitLedger :=
  immediate ledger (releaseWithDemandStateTx holder nextDemandState attemptToken now)

/-- Release and terminalize a permit only if this attempt still owns it. -/
def releaseOwned (attemptToken : Token) (now : UnixTime) : Except LedgerError Bool × PermitLedger :=
  ledger.releaseWithDemandState holder .terminal attemptToken now

/-- Release to the queue only if this attempt still owns the permit. -/
def releaseToEligibleOwned (attemptToken : Token) (now : UnixTime) :
    Except LedgerError Bool × PermitLedger :=
  ledger.releaseWithDemandState holder .eligible attemptToken now

/-- Release and cancel only if this attempt still owns the permit. -/
def releaseCancelledOwned (attemptToken : Token) (now : UnixTime) :
    Except LedgerError Bool × PermitLedger :=
  ledger.releaseWithDemandState holder .cancelled attemptToken now

/-! ## Native releases -/

/-- `DELETE FROM recorded_terminal_cleanup_releases`. -/
def forgetCleanupRelease (db : PermitLedger) (holder : Holder) (attemptToken : Token) :
    PermitLedger :=
  { db with cleanupReleases := db.cleanupReleases.erase (holder, attemptToken) }

/-- The body of `release_native_owned_with_terminal_demand`. -/
def releaseNativeOwnedTx (holder : Holder) (attemptToken : Token) (nextDemandState : DemandState)
    (now : UnixTime) (db : PermitLedger) : TxEnd PermitLedger LedgerError OwnedReleaseOutcome :=
  match db.permits.get? holder with
  | none =>
    match db.demand holder with
    -- the marker is dropped on every path that commits
    | none => .commit .staleAttempt (db.forgetCleanupRelease holder attemptToken)
    | some demand =>
      match checkDemandLane holder demand .native with
      | .error error => .fail error
      | .ok () =>
        -- a cancelled demand counts as terminal only under the recorded marker token
        let recordedCancelledCleanup :=
          nextDemandState = .terminal ∧ demand.state = .cancelled
            ∧ (holder, attemptToken) ∈ db.cleanupReleases
        .commit (if demand.state = nextDemandState ∨ recordedCancelledCleanup then .alreadyAbsent
          else .staleAttempt)
          (db.forgetCleanupRelease holder attemptToken)
  | some row =>
    if row.lane ≠ .native then .fail (.demandLaneMismatch holder .native row.lane)
    else if row.attemptToken ≠ attemptToken then
      .commit .staleAttempt (db.forgetCleanupRelease holder attemptToken)
    else
      match db.ensureDemandTx holder .native "" now.secs now.secs nextDemandState with
      | .error error => .fail error
      | .ok (_, db) =>
        .commit .released
          (((db.deleteOwned holder attemptToken).setDemand holder nextDemandState
              (i64OfU64 now.secs)).forgetCleanupRelease holder attemptToken)

variable (attemptToken : Token)

def releaseNativeOwnedWithTerminalDemand (nextDemandState : DemandState) (now : UnixTime) :
    Except LedgerError OwnedReleaseOutcome × PermitLedger :=
  immediate ledger (releaseNativeOwnedTx holder attemptToken nextDemandState now)

/-- Terminally release a Native attempt. -/
def releaseNativeTerminalOwned (now : UnixTime) :
    Except LedgerError OwnedReleaseOutcome × PermitLedger :=
  ledger.releaseNativeOwnedWithTerminalDemand holder attemptToken .terminal now

/-- Cancel a Native attempt. -/
def releaseNativeCancelledOwned (now : UnixTime) :
    Except LedgerError OwnedReleaseOutcome × PermitLedger :=
  ledger.releaseNativeOwnedWithTerminalDemand holder attemptToken .cancelled now

/-! ## The staged Scale Set release -/

/-- No row left: the demand tells a committed release from a newer owner. -/
def releaseStagedAbsentTx (holder : Holder) (nextDemandState : DemandState) (db : PermitLedger) :
    TxEnd PermitLedger LedgerError OwnedReleaseOutcome :=
  match db.demand holder with
  | none => .commit .staleAttempt db
  | some demand =>
    match checkDemandLane holder demand .scaleSet with
    | .error error => .fail error
    | .ok () =>
      if demand.state = nextDemandState then .commit .alreadyAbsent db
      else .commit .staleAttempt db

variable (nextDemandState : DemandState) (now : UnixTime)

/-- The row is there. -/
def releaseStagedHeldTx (row : PermitRow) (db : PermitLedger) :
    TxEnd PermitLedger LedgerError OwnedReleaseOutcome :=
  if row.lane ≠ .scaleSet then .fail (.demandLaneMismatch holder .scaleSet row.lane)
  else if row.attemptToken ≠ attemptToken then .commit .staleAttempt db
  else
    match db.demand holder with
    | none => .fail (.unknownHolder holder)
    | some demand =>
      match checkDemandLane holder demand .scaleSet with
      | .error error => .fail error
      | .ok () =>
        -- a closed or parked demand is not reopened
        if nextDemandState = .eligible ∧ ¬ (demand.state = .eligible ∨ demand.state = .granted) then
          .commit .staleAttempt db
        else
          match nextDemandState with
          | .terminal | .cancelled | .eligible =>
            .commit .released
              ((db.deleteOwned holder attemptToken).setDemand holder nextDemandState
                (i64OfU64 now.secs))
          -- roll the delete back
          | .granted | .waiting => .drop .staleAttempt

/-- The body of `release_scaleset_staged_owned` behind its argument check. -/
def releaseScalesetStagedTx (db : PermitLedger) :
    TxEnd PermitLedger LedgerError OwnedReleaseOutcome :=
  match db.permits.get? holder with
  | none => releaseStagedAbsentTx holder nextDemandState db
  | some row => releaseStagedHeldTx holder attemptToken nextDemandState now row db

/-- Replay a durable Scale Set release stage with exact-token outcomes. -/
def releaseScalesetStagedOwned (ledger : PermitLedger) (holder : Holder) (attemptToken : Token)
    (nextDemandState : DemandState) (now : UnixTime) :
    Except LedgerError OwnedReleaseOutcome × PermitLedger :=
  if attemptToken.isEmpty
      ∨ ¬ (nextDemandState = .eligible ∨ nextDemandState = .cancelled
        ∨ nextDemandState = .terminal) then
    (.ok .staleAttempt, ledger)
  else immediate ledger (releaseScalesetStagedTx holder attemptToken nextDemandState now)

/-! ## Refinement -/

def releaseEvent (holder : Holder) (attemptToken : Token) : Except LedgerError Bool → LedgerEvent
  | .ok true => .on holder (.release attemptToken)
  | _ => .internal

def ownedReleaseEvent (holder : Holder) (attemptToken : Token) :
    Except LedgerError OwnedReleaseOutcome → LedgerEvent
  | .ok .released => .on holder (.release attemptToken)
  | _ => .internal

variable {holder now} {db db' : PermitLedger} {next : DemandState} {token : Token}
  {out : OwnedReleaseOutcome}

/-- The row deleted under its own token, and its demand discharged. -/
theorem refines_release {row : PermitRow} (hrow : db.permits.get? holder = some row)
    (hpermits : ∀ k, db'.holding k = (db.deleteOwned holder row.attemptToken).holding k)
    (hframe : ∀ k, k ≠ holder → db'.queued k = db.queued k)
    (hdemand : Discharge row.lane (db.queued holder) (db'.queued holder)) :
    Refines db (.on holder (.release row.attemptToken)) db' := by
  refine Refines.on_holder (fun k hk => ?_) ?_
  · rw [view, view, hpermits, holding_deleteOwned, if_neg hk, hframe k hk]
  have hgone : db'.holding holder = none := by
    rw [hpermits, holding_deleteOwned, holding_of_get? hrow]
    simp [Option.filter]
  rw [view, view, hgone, holding_of_get? hrow]
  exact .release hdemand

/-- The three targets of a plain release each discharge the demand; a target of
    granted or waiting would not, and no caller passes one. -/
theorem dischargeDemand_discharge (db : PermitLedger) (holder : Holder) (lane : PermitLane)
    (hnext : next ≠ .granted ∧ next ≠ .waiting) (now : Int) :
    Discharge lane (db.queued holder) ((db.dischargeDemand holder next now).queued holder) := by
  cases next with
  | granted => exact absurd rfl hnext.1
  | waiting => exact absurd rfl hnext.2
  | terminal | cancelled =>
    simp only [dischargeDemand, queued_setDemand]
    rcases db.queued holder with _ | ⟨l, s⟩
    · exact .unrecorded
    · exact .close l s rfl
  | eligible =>
    simp only [dischargeDemand, queued_setDemandWhere]
    rcases db.queued holder with _ | ⟨l, s⟩
    · exact .unrecorded
    · cases s with
      | eligible | granted => exact .requeue l (by decide)
      | terminal | cancelled | waiting => exact .keep l (by decide)

theorem releaseWithDemandStateTx_commit {out : Bool}
    (h : releaseWithDemandStateTx holder next token now db = .commit out db') :
    (out = false ∧ db' = db)
      ∨ (out = true ∧ ∃ row, db.permits.get? holder = some row ∧ row.attemptToken = token
        ∧ db' = (db.deleteOwned holder token).dischargeDemand holder next (i64OfU64 now.secs)) := by
  unfold releaseWithDemandStateTx at h
  simp only [Table.changed_eq] at h
  cases hrow : db.permits.get? holder with
  | none =>
    simp only [hrow] at h
    cases h
    exact .inl ⟨rfl, rfl⟩
  | some row =>
    by_cases ht : row.attemptToken = token
    · simp only [hrow, any_some, ht] at h
      cases h
      exact .inr ⟨rfl, row, rfl, ht, rfl⟩
    · simp only [hrow, any_some, ht] at h
      cases h
      exact .inl ⟨rfl, rfl⟩

theorem releaseWithDemandState_moves (ledger : PermitLedger) (holder : Holder)
    (hnext : next ≠ .granted ∧ next ≠ .waiting) (token : Token) (now : UnixTime) :
    Moves (some holder)
      (releaseEvent holder token (ledger.releaseWithDemandState holder next token now).1) ledger
      (ledger.releaseWithDemandState holder next token now).2 := by
  refine Moves.immediate (fun out db' hbody => ?_) (fun out hbody => ?_) fun _ => rfl
  · rcases releaseWithDemandStateTx_commit hbody with ⟨rfl, rfl⟩ | ⟨rfl, row, hrow, rfl, rfl⟩
    · exact .refl ..
    refine ⟨(Touches.deleteOwned ledger holder row.attemptToken).trans ?_,
      refines_release hrow (fun k => ?_) (fun k hk => ?_) ?_⟩
    · unfold dischargeDemand
      cases next with
      | terminal | cancelled | eligible => exact .setDemandWhere ..
      | granted | waiting => exact .refl ..
    · cases next <;> rfl
    · cases next <;> simp [dischargeDemand, hk]
    · exact dischargeDemand_discharge (ledger.deleteOwned holder row.attemptToken) holder
        row.lane hnext _
  · simp only [releaseWithDemandStateTx] at hbody
    split at hbody <;> cases hbody

/-- What a committed native release did. -/
theorem releaseNativeOwnedTx_commit
    (h : releaseNativeOwnedTx holder token next now db = .commit out db') :
    (out ≠ .released ∧ db' = db.forgetCleanupRelease holder token)
      ∨ (out = .released ∧ ∃ row demand mid, db.permits.get? holder = some row
        ∧ row.lane = .native ∧ row.attemptToken = token
        ∧ Ensured db holder .native next demand mid ∧ Touches (some holder) db mid
        ∧ db' = ((mid.deleteOwned holder token).setDemand holder next
            (i64OfU64 now.secs)).forgetCleanupRelease holder token) := by
  unfold releaseNativeOwnedTx at h
  split at h
  · split at h
    · cases h
      exact .inl ⟨by decide, rfl⟩
    split at h
    · cases h
    · cases h
      refine .inl ⟨?_, rfl⟩
      split <;> decide
  · rename_i row hrow
    split at h
    · cases h
    rename_i hlane
    split at h
    · cases h
      exact .inl ⟨by decide, rfl⟩
    rename_i htoken
    split at h
    · cases h
    rename_i demand mid hens
    cases h
    exact .inr ⟨rfl, row, demand, mid, hrow, not_not.mp hlane,
      not_not.mp htoken, ensureDemandTx_ok hens, touches_ensureDemandTx hens, rfl⟩

theorem releaseNativeOwnedTx_not_drop :
    releaseNativeOwnedTx holder token next now db ≠ .drop out := by
  intro h
  simp only [releaseNativeOwnedTx] at h
  repeat' split at h
  all_goals cases h

theorem ownedReleaseEvent_internal (h : out ≠ .released) :
    ownedReleaseEvent holder token (.ok out) = .internal := by
  cases out with
  | released => exact absurd rfl h
  | alreadyAbsent | staleAttempt => rfl

theorem releaseNativeOwnedWithTerminalDemand_moves (ledger : PermitLedger) (holder : Holder)
    (token : Token) (hnext : next.closed = true) (now : UnixTime) :
    Moves (some holder)
      (ownedReleaseEvent holder token
        (ledger.releaseNativeOwnedWithTerminalDemand holder token next now).1)
      ledger (ledger.releaseNativeOwnedWithTerminalDemand holder token next now).2 := by
  refine Moves.immediate (fun out db' hbody => ?_) (fun out hbody => ?_) fun _ => rfl
  · rcases releaseNativeOwnedTx_commit hbody with
      ⟨hout, rfl⟩ | ⟨rfl, row, demand, mid, hrow, hlane, rfl, hE, htouches, rfl⟩
    · rw [ownedReleaseEvent_internal hout]
      exact ⟨.of_tables rfl rfl rfl, Refines.of_tables rfl rfl⟩
    have hclosed : Touches (some holder) ledger
        ((mid.deleteOwned holder row.attemptToken).setDemand holder next (i64OfU64 now.secs)) :=
      (htouches.trans (.deleteOwned ..)).trans (.setDemandWhere ..)
    refine ⟨hclosed.trans (.of_tables rfl rfl rfl),
      refines_release hrow (fun k => ?_) (fun k hk => ?_) ?_⟩
    · have hpermits : mid.permits = ledger.permits := hE.permits
      simp only [holding, deleteOwned, setDemand, setDemandWhere, forgetCleanupRelease, hpermits]
    · have hq := queued_setDemand (mid.deleteOwned holder row.attemptToken) holder next
        (i64OfU64 now.secs) k
      rw [if_neg hk, queued_deleteOwned, hE.queued_ne hk] at hq
      exact hq
    · have hq := queued_setDemand (mid.deleteOwned holder row.attemptToken) holder next
        (i64OfU64 now.secs) holder
      rw [if_pos rfl, queued_deleteOwned, hE.after] at hq
      have hq' : (((mid.deleteOwned holder row.attemptToken).setDemand holder next
          (i64OfU64 now.secs)).forgetCleanupRelease holder row.attemptToken).queued holder
          = some ⟨.native, next⟩ := hq
      rw [hq', hlane]
      rcases hE.queued_before with hb | ⟨hb, -⟩
      · rw [hb]
        exact .close .native demand.state hnext
      · rw [hb]
        exact .record hnext
  · exact absurd hbody releaseNativeOwnedTx_not_drop

/-- Without a permit row there is nothing to delete. -/
theorem releaseStagedAbsentTx_commit (h : releaseStagedAbsentTx holder next db = .commit out db') :
    out ≠ .released ∧ db' = db := by
  unfold releaseStagedAbsentTx at h
  split at h
  · cases h
    exact ⟨by decide, rfl⟩
  split at h
  · cases h
  split at h
  · cases h
    exact ⟨by decide, rfl⟩
  · cases h
    exact ⟨by decide, rfl⟩

/-- A committed staged release either deleted the row of its own token, with a
    demand the target admits, or changed nothing. -/
theorem releaseScalesetStagedTx_commit
    (h : releaseScalesetStagedTx holder token next now db = .commit out db') :
    (out ≠ .released ∧ db' = db)
      ∨ (out = .released ∧ ∃ row state, db.permits.get? holder = some row
        ∧ row.lane = .scaleSet ∧ row.attemptToken = token
        ∧ db.queued holder = some ⟨.scaleSet, state⟩
        ∧ (next.closed = true ∨ next = .eligible ∧ (state = .eligible ∨ state = .granted))
        ∧ db' = (db.deleteOwned holder token).setDemand holder next (i64OfU64 now.secs)) := by
  unfold releaseScalesetStagedTx at h
  split at h
  · exact .inl (releaseStagedAbsentTx_commit h)
  rename_i row hrow
  unfold releaseStagedHeldTx at h
  split at h
  · cases h
  rename_i hlane
  split at h
  · cases h
    exact .inl ⟨by decide, rfl⟩
  rename_i htoken
  split at h
  · cases h
  rename_i demand hdemand
  split at h
  · cases h
  rename_i hcheck
  have hqueued := queued_of_checkDemandLane hdemand hcheck
  split at h
  · cases h
    exact .inl ⟨by decide, rfl⟩
  rename_i hadmitted
  cases next with
  | granted | waiting => cases h
  | terminal | cancelled =>
    cases h
    exact .inr ⟨rfl, row, demand.state, hrow, not_not.mp hlane,
      not_not.mp htoken, hqueued, .inl rfl, rfl⟩
  | eligible =>
    cases h
    refine .inr ⟨rfl, row, demand.state, hrow, not_not.mp hlane,
      not_not.mp htoken, hqueued, .inr ⟨rfl, ?_⟩, rfl⟩
    -- a requeue got past the guard, so the demand was open
    by_contra hno
    exact hadmitted ⟨rfl, hno⟩

theorem releaseScalesetStagedTx_drop
    (h : releaseScalesetStagedTx holder token next now db = .drop out) : out ≠ .released := by
  rintro rfl
  simp only [releaseScalesetStagedTx, releaseStagedAbsentTx, releaseStagedHeldTx] at h
  repeat' split at h
  all_goals cases h

theorem releaseScalesetStagedOwned_moves (ledger : PermitLedger) (holder : Holder)
    (token : Token) (next : DemandState) (now : UnixTime) :
    Moves (some holder)
      (ownedReleaseEvent holder token (ledger.releaseScalesetStagedOwned holder token next now).1)
      ledger (ledger.releaseScalesetStagedOwned holder token next now).2 := by
  unfold releaseScalesetStagedOwned
  split
  · exact .refl ..
  refine Moves.immediate (fun out db' hbody => ?_) (fun out hbody => ?_) fun _ => rfl
  · rcases releaseScalesetStagedTx_commit hbody with
      ⟨hout, rfl⟩ | ⟨rfl, row, state, hrow, hlane, rfl, hqueued, hadmitted, rfl⟩
    · rw [ownedReleaseEvent_internal hout]
      exact .refl ..
    refine ⟨(Touches.deleteOwned ..).trans (.setDemandWhere ..),
      refines_release hrow (fun k => ?_) (fun k hk => ?_) ?_⟩
    · rw [holding_setDemand]
    · rw [queued_setDemand, if_neg hk, queued_deleteOwned]
    · rw [queued_setDemand, if_pos rfl, queued_deleteOwned, hqueued]
      rcases hadmitted with hclosed | ⟨rfl, hopen⟩
      · exact .close .scaleSet state hclosed
      · exact .requeue .scaleSet hopen
  · exact ownedReleaseEvent_internal (releaseScalesetStagedTx_drop hbody)

/-! ## Completing and replaying a staged release -/

section Staged

variable {ledger}

/-- The three targets of a staged release. -/
theorem staged_target_of_admits {state : DemandState}
    (h : next.closed = true ∨ next = .eligible ∧ (state = .eligible ∨ state = .granted)) :
    next = .eligible ∨ next = .cancelled ∨ next = .terminal := by
  cases next with
  | eligible => exact .inl rfl
  | cancelled => exact .inr (.inl rfl)
  | terminal => exact .inr (.inr rfl)
  | granted | waiting => rcases h with hc | ⟨hc, -⟩ <;> cases hc

/-- The owner's staged release goes through. -/
theorem releaseScalesetStagedOwned_released {row : PermitRow} {state : DemandState}
    (hrow : ledger.permits.get? holder = some row) (hlane : row.lane = .scaleSet)
    (htoken : row.attemptToken = token) (hempty : token ≠ "")
    (hqueued : ledger.queued holder = some ⟨.scaleSet, state⟩)
    (hadmitted : next.closed = true ∨ next = .eligible ∧ (state = .eligible ∨ state = .granted))
    (now : UnixTime) :
    ledger.releaseScalesetStagedOwned holder token next now
      = (.ok .released,
          (ledger.deleteOwned holder token).setDemand holder next (i64OfU64 now.secs)) := by
  obtain ⟨demandRow, hdemand, hq⟩ := map_eq_some_iff.mp hqueued
  obtain ⟨hdlane, hdstate⟩ := Queued.mk.inj hq
  have htarget := staged_target_of_admits hadmitted
  have hargs : ¬ (token.isEmpty = true
      ∨ ¬ (next = .eligible ∨ next = .cancelled ∨ next = .terminal)) := by
    simp [hempty, htarget]
  have hopen : ¬ (next = .eligible
      ∧ ¬ (demandRow.state = .eligible ∨ demandRow.state = .granted)) := by
    rintro ⟨rfl, hnot⟩
    rw [hdstate] at hnot
    rcases hadmitted with hclosed | ⟨-, hopen⟩
    · cases hclosed
    · exact hnot hopen
  rw [releaseScalesetStagedOwned, if_neg hargs]
  apply immediate_of_commit
  simp only [releaseScalesetStagedTx, hrow, releaseStagedHeldTx, hlane, htoken, demand, hdemand,
    map_some, DemandRow.toDemand, hdlane, ne_eq, if_neg hopen]
  rcases htarget with rfl | rfl | rfl <;> rfl

/-- A replay of a release that the ledger has already committed. -/
theorem releaseScalesetStagedOwned_replayed (hnone : ledger.permits.get? holder = none)
    (hempty : token ≠ "") (hqueued : ledger.queued holder = some ⟨.scaleSet, next⟩)
    (htarget : next = .eligible ∨ next = .cancelled ∨ next = .terminal) (now : UnixTime) :
    ledger.releaseScalesetStagedOwned holder token next now = (.ok .alreadyAbsent, ledger) := by
  obtain ⟨_, hdemand, hq⟩ := map_eq_some_iff.mp hqueued
  obtain ⟨hdlane, hdstate⟩ := Queued.mk.inj hq
  have hargs : ¬ (token.isEmpty = true
      ∨ ¬ (next = .eligible ∨ next = .cancelled ∨ next = .terminal)) := by
    simp [hempty, htarget]
  rw [releaseScalesetStagedOwned, if_neg hargs]
  apply immediate_of_commit
  simp only [releaseScalesetStagedTx, hnone, releaseStagedAbsentTx, demand, hdemand,
    map_some, checkDemandLane, DemandRow.toDemand, hdlane, hdstate, if_true]

end Staged

/-! ## A token that does not own the row -/

section Stale

variable {ledger} {row : PermitRow}

section

variable (hrow : ledger.permits.get? holder = some row) (hne : row.attemptToken ≠ token)
  (next : DemandState) (now : UnixTime)
include hrow hne

theorem releaseWithDemandState_stale :
    (ledger.releaseWithDemandState holder next token now).2 = ledger := by
  refine immediate_unchanged fun out db' hbody => ?_
  rcases releaseWithDemandStateTx_commit hbody with ⟨-, rfl⟩ | ⟨-, _, hrow', ht, -⟩
  · rfl
  · cases hrow.symm.trans hrow'
    exact absurd ht hne

/-- A stale native release forgets its cleanup marker and touches no row. -/
theorem releaseNativeOwnedWithTerminalDemand_stale :
    (ledger.releaseNativeOwnedWithTerminalDemand holder token next now).2 = ledger
      ∨ (ledger.releaseNativeOwnedWithTerminalDemand holder token next now).2
        = ledger.forgetCleanupRelease holder token := by
  refine immediate_of_commits
    (P := fun db => db = ledger ∨ db = ledger.forgetCleanupRelease holder token)
    (.inl rfl) fun out db' hbody => ?_
  rcases releaseNativeOwnedTx_commit hbody with
    ⟨-, rfl⟩ | ⟨-, row', demand, mid, hrow', -, ht, -, -⟩
  · exact .inr rfl
  · cases hrow.symm.trans hrow'
    exact absurd ht hne

theorem releaseScalesetStagedOwned_stale :
    (ledger.releaseScalesetStagedOwned holder token next now).2 = ledger := by
  unfold releaseScalesetStagedOwned
  split
  · rfl
  refine immediate_unchanged fun out db' hbody => ?_
  rcases releaseScalesetStagedTx_commit hbody with ⟨-, rfl⟩ | ⟨-, _, _, hrow', -, ht, -⟩
  · rfl
  · cases hrow.symm.trans hrow'
    exact absurd ht hne

end

end Stale

end PermitLedger

end Velnor.Control
