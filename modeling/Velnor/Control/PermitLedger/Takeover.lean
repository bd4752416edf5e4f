/-
  The two transactions that give an existing permit row a new owner
  (permit_ledger.rs): adoption for redelivery, once the old owner is dead or
  its guard has dropped, and the claimed recovery rotation of a Scale Set row.
  Both rewrite the token in place and repair the demand through
  `ensureGrantedTx`; neither inserts a row.
-/
import Velnor.Control.PermitLedger.Acquire

namespace Velnor.Control

open Relational

namespace PermitLedger

/-! ## Adoption -/

/-- `retain_uncertain` leaves this pair of states behind when the old guard of
    this very process exits. -/
def sameProcessRetainedNativeAttempt (lane : PermitLane) (rowPid pid : Nat)
    (rowState : PermitState) (demandState : Option DemandState) : Bool :=
  lane = .native ∧ rowPid = pid ∧ rowState = .uncertain ∧ demandState = some .terminal

/-- The body of `adopt_for_redelivery`. -/
def adoptForRedeliveryTx (holder : Holder) (lane : PermitLane) (state : PermitState)
    (generation pid : Nat) (isAlive : Nat → Bool) (uuid : Token) (now : UnixTime)
    (db : PermitLedger) : TxEnd PermitLedger LedgerError AdoptOutcome :=
  if db.generation ≠ generation then .drop .staleGeneration
  else
    match db.permits.get? holder with
    | none => .drop .missing
    | some row =>
      if row.lane ≠ lane then .drop .liveHolder
      else
        -- without a usable pid the owner cannot be shown dead
        match row.pid.bind u32OfI64 with
        | none => .drop .liveHolder
        | some rowPid =>
          let demandState := (db.demands.get? holder).map DemandRow.state
          if isAlive rowPid
              ∧ ¬ sameProcessRetainedNativeAttempt lane rowPid pid row.state demandState then
            .drop .liveHolder
          else
            match db.permits.updateUniq? holder
                (fun r =>
                  { r with
                    state := state
                    updatedUnix := i64OfU64 now.secs
                    generation := i64OfU64 generation
                    pid := some pid
                    attemptToken := uuid
                    recoveryClaimToken := none
                    recoveryPreviousPid := none
                    recoveryPreviousToken := none })
                (fun _ => rfl) with
            -- the new token is `UNIQUE`
            | none => .fail .storage
            | some permits =>
              match { db with permits := permits }.ensureGrantedTx holder lane now.secs with
              | .error error => .fail error
              | .ok db => .commit (.adopted uuid) db

/-- Adopt one holder's row for redelivery. -/
def adoptForRedelivery (ledger : PermitLedger) (holder : Holder) (lane : PermitLane)
    (state : PermitState) (generation pid : Nat) (isAlive : Nat → Bool) (uuid : Token)
    (now : UnixTime) : Except LedgerError AdoptOutcome × PermitLedger :=
  immediate ledger (adoptForRedeliveryTx holder lane state generation pid isAlive uuid now)

/-! ## Recovery rotation -/

/-- The arguments no rotation accepts. -/
def rotationArgsInvalid (previousPid : Nat) (previousToken : Option Token)
    (targetToken claimToken : Token) : Bool :=
  targetToken.isEmpty || claimToken.isEmpty || previousPid == 0
    || previousToken.any String.isEmpty || previousToken == some targetToken

/-- The row already carries the target token: accept only the exact rotation
    recorded on it. -/
def alreadyRotatedTx (generation previousPid : Nat) (previousToken : Option Token)
    (claimToken : Token) (row : PermitRow) (db : PermitLedger) :
    TxEnd PermitLedger LedgerError AttemptRotationOutcome :=
  if db.generation < generation then .drop .staleGeneration
  else if row.recoveryClaimToken = some claimToken
      ∧ row.recoveryPreviousPid = some (previousPid : Int)
      ∧ row.recoveryPreviousToken = previousToken
      ∧ row.generation = generation then
    .commit .alreadyRotated db
  else .drop .staleAttempt

/-- `none` names only a token this ledger minted for a pre-token row. -/
def previousTokenMatches (db : PermitLedger) (holder : Holder) (currentToken : Token) :
    Option Token → Bool
  | some previous => previous = currentToken
  | none => (holder, currentToken) ∈ db.tokenMigrations

/-- The body of `rotate_scaleset_attempt_for_recovery` behind its argument
    check. -/
def rotateScalesetAttemptTx (holder : Holder) (state : PermitState) (generation previousPid : Nat)
    (previousToken : Option Token) (targetToken claimToken : Token) (currentPid : Nat)
    (now : UnixTime) (db : PermitLedger) :
    TxEnd PermitLedger LedgerError AttemptRotationOutcome :=
  if db.recoveryClaim ≠ some (claimToken, (currentPid : Int)) then .drop .staleAttempt
  else
    match db.permits.get? holder with
    | none => .drop .missing
    | some row =>
      if row.lane ≠ .scaleSet then .fail (.demandLaneMismatch holder .scaleSet row.lane)
      -- committed before a crash, and asked for again
      else if row.attemptToken = targetToken then
        alreadyRotatedTx generation previousPid previousToken claimToken row db
      else if db.generation ≠ generation then .drop .staleGeneration
      else if row.attemptToken.isEmpty ∨ row.pid.bind u32OfI64 ≠ some previousPid
          ∨ ¬ db.previousTokenMatches holder row.attemptToken previousToken then
        .drop .staleAttempt
      -- the `WHERE` of the update, which must change one row
      else if db.permits.changed holder (fun r =>
          r.lane = .scaleSet ∧ r.attemptToken = row.attemptToken
            ∧ r.pid = some (previousPid : Int)) ≠ 1 then
        .drop .staleAttempt
      else
        match db.permits.updateUniq? holder
            (fun r =>
              { r with
                state := state
                updatedUnix := i64OfU64 now.secs
                generation := i64OfU64 generation
                pid := some currentPid
                attemptToken := targetToken
                recoveryClaimToken := some claimToken
                recoveryPreviousPid := some previousPid
                recoveryPreviousToken := previousToken })
            (fun _ => rfl) with
        | none => .fail .storage
        | some permits =>
          match { db with permits := permits }.ensureGrantedTx holder .scaleSet now.secs with
          | .error error => .fail error
          | .ok db => .commit .rotated db

/-- Apply or finish a durable Scale Set recovery token rotation. -/
def rotateScalesetAttemptForRecovery (ledger : PermitLedger) (holder : Holder)
    (state : PermitState) (generation previousPid : Nat) (previousToken : Option Token)
    (targetToken claimToken : Token) (currentPid : Nat) (now : UnixTime) :
    Except LedgerError AttemptRotationOutcome × PermitLedger :=
  if rotationArgsInvalid previousPid previousToken targetToken claimToken then
    (.ok .staleAttempt, ledger)
  else
    immediate ledger
      (rotateScalesetAttemptTx holder state generation previousPid previousToken targetToken
        claimToken currentPid now)

/-! ## Both are one retoken step -/

variable {db db' : PermitLedger} {holder : Holder} {state : PermitState} {generation : Nat}
  {now : UnixTime}

/-- A row rewritten in place under a new token, and its demand recorded. -/
theorem moves_retoken {row : PermitRow} {permits : PermitTable} {f : PermitRow → PermitRow}
    {hf : ∀ r, (f r).holder = r.holder} {now : Nat} (hrow : db.permits.get? holder = some row)
    (hupd : db.permits.updateUniq? holder f hf = some permits) (hlane : (f row).lane = row.lane)
    (hens : { db with permits := permits }.ensureGrantedTx holder row.lane now = .ok db') :
    Moves (some holder) (.on holder (.retoken (f row).attemptToken)) db db' := by
  have hget := Table.get?_of_updateUniq? hupd
  have hE := ensureGrantedTx_ok hens
  have hpermits : db'.permits = permits := hE.permits
  refine ⟨(Touches.of_permits fun k hk => ?_).trans (touches_ensureGrantedTx hens),
    Refines.on_holder (fun k hk => ?_) ?_⟩
  · rw [hget, if_neg hk]
  · simp only [view, holding, hpermits, hget, if_neg hk, hE.queued_ne hk, queued_withPermits]
  · have hafter : db'.holding holder = some ⟨row.lane, (f row).attemptToken⟩ := by
      rw [holding, hpermits, hget, if_pos rfl, hrow, Option.map_some, Option.map_some, hlane]
    rw [view, view, holding_of_get? hrow, hafter]
    exact .retoken hE.recorded.settle

def adoptEvent (holder : Holder) : Except LedgerError AdoptOutcome → LedgerEvent
  | .ok (.adopted attemptToken) => .on holder (.retoken attemptToken)
  | _ => .internal

def rotateEvent (holder : Holder) (targetToken : Token) :
    Except LedgerError AttemptRotationOutcome → LedgerEvent
  | .ok .rotated => .on holder (.retoken targetToken)
  | _ => .internal

variable {pid : Nat} {uuid : Token} {lane : PermitLane} {out : AdoptOutcome} {isAlive : Nat → Bool}

/-- A committed adoption was of the current epoch; its row had a dead owner or
    was retained as uncertain. -/
theorem adoptForRedeliveryTx_commit
    (h : adoptForRedeliveryTx holder lane state generation pid isAlive uuid now db =
      .commit out db') :
    db.generation = generation ∧ out = .adopted uuid
      ∧ Moves (some holder) (.on holder (.retoken uuid)) db db'
      ∧ ∃ row owner, db.permits.get? holder = some row ∧ row.pid.bind u32OfI64 = some owner
        ∧ (row.state ≠ .uncertain → isAlive owner = false) := by
  simp only [adoptForRedeliveryTx] at h
  repeat' split at h
  all_goals cases h
  rename_i hgen _ row hrow hlane _ owner howner hdead _ _ hupd _ hens
  obtain rfl := not_not.mp hlane
  refine ⟨not_not.mp hgen, rfl, moves_retoken hrow hupd rfl hens, row, owner, hrow, howner, ?_⟩
  intro hstate
  by_contra halive
  exact hdead ⟨by simpa using halive, by simp [sameProcessRetainedNativeAttempt, hstate]⟩

/-- No rolled back adoption hands out a token. -/
theorem adoptForRedeliveryTx_drop
    (h : adoptForRedeliveryTx holder lane state generation pid isAlive uuid now db = .drop out)
    (token : Token) : out ≠ .adopted token := by
  rintro rfl
  simp only [adoptForRedeliveryTx] at h
  repeat' split at h
  all_goals cases h

/-- The row carries the target token, and the record of the rotation to it. -/
structure RecordsRotation (row : PermitRow) (generation previousPid : Nat)
    (previousToken : Option Token) (targetToken claimToken : Token) : Prop where
  lane : row.lane = .scaleSet
  token : row.attemptToken = targetToken
  claim : row.recoveryClaimToken = some claimToken
  previousPid : row.recoveryPreviousPid = some (previousPid : Int)
  previousToken : row.recoveryPreviousToken = previousToken
  generation : row.generation = i64OfU64 generation

section Rotation

variable {previousPid : Nat} {previousToken : Option Token} {targetToken claimToken : Token}
  {currentPid : Nat} {out : AttemptRotationOutcome}

/-- A committed rotation held the recovery claim and named the row's own pid and
    token, or found its own target there already and changed nothing. -/
theorem rotateScalesetAttemptTx_commit
    (h : rotateScalesetAttemptTx holder state generation previousPid previousToken targetToken
      claimToken currentPid now db = .commit out db') :
    db.recoveryClaim = some (claimToken, (currentPid : Int))
      ∧ ∃ row, db.permits.get? holder = some row
        ∧ ((out = .alreadyRotated ∧ row.attemptToken = targetToken ∧ db' = db)
          ∨ (out = .rotated ∧ row.attemptToken ≠ targetToken ∧ db.generation = generation
            ∧ row.pid.bind u32OfI64 = some previousPid
            ∧ db.previousTokenMatches holder row.attemptToken previousToken = true
            ∧ Moves (some holder) (.on holder (.retoken targetToken)) db db'
            ∧ ∃ row', db'.permits.get? holder = some row'
              ∧ RecordsRotation row' generation previousPid previousToken targetToken
                claimToken)) := by
  simp only [rotateScalesetAttemptTx, alreadyRotatedTx] at h
  repeat' split at h
  all_goals cases h
  · rename_i hclaim _ row hrow _ htarget _ _
    exact ⟨not_not.mp hclaim, row, hrow, .inl ⟨rfl, htarget, rfl⟩⟩
  rename_i hclaim _ row hrow hlane htarget hgen hproof _ _ permits hupd _ hens
  rw [not_or, not_or, not_not, not_not] at hproof
  obtain ⟨-, hpid, hprevious⟩ := hproof
  have hlane' := not_not.mp hlane
  rw [← hlane'] at hens
  refine ⟨not_not.mp hclaim, row, hrow, .inr ⟨rfl, htarget, not_not.mp hgen,
    hpid, hprevious, moves_retoken hrow hupd rfl hens, ?_⟩⟩
  rw [(ensureGrantedTx_ok hens).permits, Table.get?_of_updateUniq? hupd, if_pos rfl, hrow]
  exact ⟨_, rfl, hlane', rfl, rfl, rfl, rfl, rfl⟩

theorem rotateScalesetAttemptTx_drop
    (h : rotateScalesetAttemptTx holder state generation previousPid previousToken targetToken
      claimToken currentPid now db = .drop out) : out ≠ .rotated := by
  rintro rfl
  simp only [rotateScalesetAttemptTx, alreadyRotatedTx] at h
  repeat' split at h
  all_goals cases h

end Rotation

end PermitLedger

end Velnor.Control
