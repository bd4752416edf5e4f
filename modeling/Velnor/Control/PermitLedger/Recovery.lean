/-
  What a cleaner, a redelivery and a restarting daemon can do to each other's
  rows.  A cleanup claim is left only by the ways out that `LeavesCleaning`
  lists, whatever the others do in between; and a recovery rotation is made
  once, by the owner of the recovery claim, and recognised ever after by the
  record it leaves on the row.
-/
import Velnor.Control.PermitLedger.Fencing

namespace Velnor.Control

open Relational

/-! ## Cleanup claims -/

variable (op : LedgerOp) {holder : Holder} {ledger : PermitLedger}

namespace PermitLedger

/-- The holder's permit is under a cleanup claim of `token`. -/
def Cleaning (holder : Holder) (token : Token) (ledger : PermitLedger) : Prop :=
  ∃ row, ledger.permits.get? holder = some row ∧ row.state = .cleaning ∧ row.attemptToken = token

/-- A transaction that at most deletes the owned row keeps it or removes it. -/
theorem get?_of_deletes {α : Type} {body : PermitLedger → TxEnd PermitLedger LedgerError α}
    (h : ∀ value db', body ledger = .commit value db' → db'.permits = ledger.permits ∨
      ∃ token, db'.permits = (ledger.deleteOwned holder token).permits) :
    (immediate ledger body).2.permits.get? holder = ledger.permits.get? holder
      ∨ (immediate ledger body).2.permits.get? holder = none := by
  refine immediate_of_commits (P := fun db : PermitLedger => db.permits.get? holder
    = ledger.permits.get? holder ∨ db.permits.get? holder = none) (.inl rfl)
    fun value db' hbody => ?_
  rcases h value db' hbody with hpermits | ⟨token, hpermits⟩ <;> rw [hpermits]
  · exact .inl rfl
  rw [deleteOwned, Table.get?_deleteWhere, if_pos rfl]
  cases ledger.permits.get? holder with
  | none => exact .inr rfl
  | some row => by_cases htoken : row.attemptToken = token <;> simp [Option.filter, htoken]

end PermitLedger

namespace LedgerOp

open PermitLedger

/-- The ways out of a cleanup claim on the row of `holder`: a release that
    removes it, a retained failure under its own token, an adoption from a dead
    process, a rotation under the recovery claim. -/
def LeavesCleaning (ledger : PermitLedger) (holder : Holder) (token : Token) (op : LedgerOp) :
    Prop :=
  match op with
  | .releaseOwned h t _ | .releaseToEligibleOwned h t _ | .releaseCancelledOwned h t _
  | .releaseNativeTerminalOwned h t _ | .releaseNativeCancelledOwned h t _
  | .releaseScalesetStagedOwned h t _ _ =>
    h = holder ∧ t = token ∧ (op.step ledger).permits.get? holder = none
  | .retainRecordedFailureUncertainOwned h _ t _ | .retainUncertainAfterCleanupOwned h t _ _ =>
    h = holder ∧ t = token
  | .adoptForRedelivery h _ _ _ _ isAlive _ _ =>
    h = holder ∧ ∃ row pid, ledger.permits.get? holder = some row
      ∧ row.pid.bind u32OfI64 = some pid ∧ isAlive pid = false
  | .rotateScalesetAttempt h _ _ _ _ _ claimToken currentPid _ =>
    h = holder ∧ ledger.recoveryClaim = some (claimToken, (currentPid : Int))
  | _ => False

/-- One call leaves a cleanup claim as it is, or is one of the ways out. -/
theorem step_cleaning {token : Token} (h : Cleaning holder token ledger) :
    Cleaning holder token (op.step ledger) ∨ op.LeavesCleaning ledger holder token := by
  obtain ⟨row, hrow, hstate, rfl⟩ := h
  have hkept : ∀ {db : PermitLedger}, db.permits.get? holder = ledger.permits.get? holder →
      Cleaning holder row.attemptToken db := fun h => ⟨row, h.trans hrow, hstate, rfl⟩
  have htx : ∀ {α} {body : PermitLedger → TxEnd PermitLedger LedgerError α},
      (∀ value db', body ledger = .commit value db' → Cleaning holder row.attemptToken db') →
      Cleaning holder row.attemptToken (immediate ledger body).2 :=
    immediate_of_commits (hkept rfl)
  by_cases hstale : op.StaleFor ledger holder row.attemptToken
  · left
    obtain h | ⟨_, h⟩ := step_of_staleFor hrow hstale <;> rw [h] <;> exact hkept rfl
  by_cases hother : op.writesMeta = false ∧ some holder ≠ op.target
  · exact .inl (hkept ((step_moves ledger hother.1).permits holder hother.2))
  have htarget : op.writesMeta = false → op.target = some holder := fun hmeta =>
    by_contra fun hne => hother ⟨hmeta, Ne.symm hne⟩
  have hown : ∀ {h : Holder} {t : Token}, ¬ (h = holder ∧ t ≠ row.attemptToken) → h = holder →
      t = row.attemptToken := fun hnot heq => by_contra fun hne => hnot ⟨heq, hne⟩
  -- an update that refuses a row in this state
  have hrefused : ∀ {db : PermitLedger}, (db = ledger ∨ ∃ row, ledger.permits.get? holder
      = some row ∧ row.state ≠ .cleaning) → Cleaning holder row.attemptToken db := by
    rintro db (rfl | ⟨row', hrow', hne⟩)
    · exact hkept rfl
    · cases hrow.symm.trans hrow'
      exact absurd hstate hne
  cases op with
  | observeDemand | parkDemand | cancelDemand | claimScalesetRecovery | releaseScalesetRecovery =>
    cases htarget rfl
  | beginEpoch | setMaxJobs => exact .inl (hkept rfl)
  | setMaxJobsIfUnset n =>
    left
    rcases ledger.setMaxJobsIfUnset_cases n with hstep | hstep <;> rw [step, hstep] <;>
      exact hkept rfl
  | reconcile =>
    left
    refine htx fun _ db' hbody => ⟨row, ?_, hstate, rfl⟩
    rw [reconcileTx_permits hbody, hrow]
    simp [PermitRow.swept, hstate]
  -- the calls that may write the holder's own row
  | acquireAttempt =>
    cases htarget rfl
    rw [step, PermitLedger.acquireAttempt, acquireAttemptWithToken_held hrow]
    exact .inl (hkept rfl)
  | acquireScalesetAttempt h state generation pid t now =>
    obtain rfl := Option.some.inj (htarget rfl)
    left
    rcases ledger.acquireScalesetAttemptWithToken_cases h state generation pid t now
      with hstep | hstep <;> rw [step, hstep]
    · exact hkept rfl
    · rw [acquireAttemptWithToken_held hrow]
      exact hkept rfl
  | transitionOwned =>
    cases htarget rfl
    exact .inl (htx fun _ _ hbody => hrefused (transitionForAttemptTx_commit hbody).2.2)
  | retainUncertainOwned =>
    cases htarget rfl
    exact .inl (htx fun _ _ hbody => hrefused (retainUncertainForAttemptTx_commit hbody).2.2)
  | claimRecordedTerminalCleanup =>
    cases htarget rfl
    left
    rw [step, PermitLedger.claimRecordedTerminalCleanup]
    split
    · exact hkept rfl
    refine htx fun _ db' hbody => ?_
    simp only [claimRecordedTerminalCleanupTx, hrow] at hbody
    rcases claimHeldCleanupTx_commit hbody with ⟨-, rfl⟩ | ⟨htoken, rfl⟩
    · exact hkept rfl
    · -- claimed again by another process
      simp [Cleaning, recordOwner, updateOwned, Table.get?_updateWhere, hrow, htoken]
  | retainRecordedFailureUncertainOwned | retainUncertainAfterCleanupOwned =>
    cases htarget rfl
    exact .inr ⟨rfl, hown hstale rfl⟩
  | releaseOwned | releaseToEligibleOwned | releaseCancelledOwned =>
    cases htarget rfl
    refine (get?_of_deletes fun _ db' hbody => ?_).imp hkept fun h => ⟨rfl, hown hstale rfl, h⟩
    rcases releaseWithDemandStateTx_commit hbody with ⟨-, rfl⟩ | ⟨-, row, -, -, rfl⟩
    · exact .inl rfl
    · exact .inr ⟨_, rfl⟩
  | releaseNativeTerminalOwned | releaseNativeCancelledOwned =>
    cases htarget rfl
    refine (get?_of_deletes fun _ db' hbody => ?_).imp hkept fun h => ⟨rfl, hown hstale rfl, h⟩
    rcases releaseNativeOwnedTx_commit hbody with
      ⟨-, rfl⟩ | ⟨-, row, demand, mid, -, -, -, hE, -, rfl⟩
    · exact .inl rfl
    have hpermits : mid.permits = ledger.permits := hE.permits
    have hdeleted : ∀ h t, (mid.deleteOwned h t).permits = (ledger.deleteOwned h t).permits :=
      fun h t => by rw [deleteOwned, deleteOwned, hpermits]
    exact .inr ⟨_, hdeleted _ _⟩
  | releaseScalesetStagedOwned =>
    cases htarget rfl
    rw [step, PermitLedger.releaseScalesetStagedOwned]
    split
    · exact .inl (hkept rfl)
    rename_i hargs
    refine (get?_of_deletes fun _ db' hbody => ?_).imp hkept fun h =>
      ⟨rfl, hown hstale rfl, ?_⟩
    · rcases releaseScalesetStagedTx_commit hbody with
        ⟨-, rfl⟩ | ⟨-, row, state, -, -, -, -, -, rfl⟩
      · exact .inl rfl
      · exact .inr ⟨_, rfl⟩
    · rwa [step, PermitLedger.releaseScalesetStagedOwned, if_neg hargs]
  | adoptForRedelivery =>
    cases htarget rfl
    refine immediate_of_commits (P := fun db => Cleaning _ row.attemptToken db ∨ _)
      (.inl (hkept rfl)) fun _ db' hbody => .inr ?_
    obtain ⟨-, -, -, _, pid, hrow', hpid, hdead⟩ := adoptForRedeliveryTx_commit hbody
    cases hrow.symm.trans hrow'
    exact ⟨rfl, row, pid, hrow, hpid, hdead (by rw [hstate]; decide)⟩
  | rotateScalesetAttempt =>
    cases htarget rfl
    rw [step, rotateScalesetAttemptForRecovery]
    split
    · exact .inl (hkept rfl)
    · exact immediate_of_commits (P := fun db => Cleaning _ row.attemptToken db ∨ _)
        (.inl (hkept rfl)) fun _ db' hbody =>
          .inr ⟨rfl, (rotateScalesetAttemptTx_commit hbody).1⟩

end LedgerOp

/-- Over any run a permit in state cleaning stays in it, under its token, until
    one of the ways out is taken from there. -/
theorem cleaning_sticky (start : PermitLedger) (holder : Holder) (token : Token)
    (h : PermitLedger.Cleaning holder token start) (ops : List LedgerOp) :
    PermitLedger.Cleaning holder token (runLedger start ops)
      ∨ ∃ before op after, ops = before ++ op :: after
        ∧ PermitLedger.Cleaning holder token (runLedger start before)
        ∧ op.LeavesCleaning (runLedger start before) holder token := by
  have hstep : ∀ (ledger : PermitLedger) (op : LedgerOp), True →
      PermitLedger.Cleaning holder token ledger →
        PermitLedger.Cleaning holder token (op.step ledger)
          ∨ op.LeavesCleaning ledger holder token := fun _ op _ => op.step_cleaning
  exact run_until (fun _ _ _ => trivial) hstep trivial h ops

/-- A claimed cleanup that a late transition runs into. -/
theorem cleaning_sticky_claimed :
    let start := runLedger .empty
      [.setMaxJobs 1,
        .acquireAttempt "native/1" .native .running 0 (some 11) "t1" ⟨1000, by decide⟩,
        .claimRecordedTerminalCleanup "native/1" .native "t1" 12 ⟨1001, by decide⟩]
    let ops : List LedgerOp := [.transitionOwned "native/1" .running 0 "t1" 11 ⟨1003, by decide⟩]
    PermitLedger.Cleaning "native/1" "t1" start
      ∧ (PermitLedger.Cleaning "native/1" "t1" (runLedger start ops)
        ∨ ∃ before op after, ops = before ++ op :: after
          ∧ PermitLedger.Cleaning "native/1" "t1" (runLedger start before)
          ∧ op.LeavesCleaning (runLedger start before) "native/1" "t1") := by
  intro start ops
  have hstart : PermitLedger.Cleaning "native/1" "t1" start := ⟨_, rfl, by decide, by decide⟩
  exact ⟨hstart, cleaning_sticky start "native/1" "t1" hstart ops⟩

/-! ## Recovery rotations -/

/-- Epochs only move forward, and never past the last generation. -/
theorem LedgerOp.step_generation (h : ledger.permitMeta.generation ≤ i64Max) :
    ledger.permitMeta.generation ≤ (op.step ledger).permitMeta.generation
      ∧ (op.step ledger).permitMeta.generation ≤ i64Max := by
  cases hepoch : op.isBeginEpoch with
  | true =>
    cases op with
    | beginEpoch =>
      show _ ≤ min _ _ ∧ min _ _ ≤ _
      omega
    | _ => cases hepoch
  | false =>
    cases hrec : op.reconciles ledger with
    | true =>
      rw [(step_of_reconciles hrec).2]
      exact ⟨le_refl _, h⟩
    | false =>
      rw [(step_epoch hepoch hrec).1]
      exact ⟨le_refl _, h⟩

theorem generation_run (h : ledger.permitMeta.generation ≤ i64Max) (ops : List LedgerOp) :
    ledger.permitMeta.generation ≤ (runLedger ledger ops).permitMeta.generation
      ∧ (runLedger ledger ops).permitMeta.generation ≤ i64Max := by
  refine run_preserves (I := fun db : PermitLedger => ledger.permitMeta.generation
    ≤ db.permitMeta.generation ∧ db.permitMeta.generation ≤ i64Max) (fun db op hdb => ?_)
    ⟨le_refl _, h⟩ ops
  have hstep := op.step_generation hdb.2
  exact ⟨hdb.1.trans hstep.1, hstep.2⟩

/-- What the recovery of a staged rotation asks the ledger for. -/
structure RotationRequest where
  holder : Holder
  generation : Nat
  previousPid : Nat
  previousToken : Option Token
  targetToken : Token
  claimToken : Token

namespace RotationRequest

open PermitLedger

variable (r : RotationRequest) (ledger : PermitLedger) (state : PermitState) (pid : Nat)
  (now : UnixTime)

/-- The call, made by the process `pid`. -/
def ask : Except LedgerError AttemptRotationOutcome × PermitLedger :=
  ledger.rotateScalesetAttemptForRecovery r.holder state r.generation r.previousPid
    r.previousToken r.targetToken r.claimToken pid now

/-- The process owns the single recovery claim row with the presented token. -/
def Owned : Prop := ledger.recoveryClaim = some (r.claimToken, (pid : Int))

/-- The request names the current epoch, and the pid and token of the row. -/
def Proven : Prop :=
  ledger.generation = r.generation ∧ ∃ row, ledger.permits.get? r.holder = some row
    ∧ row.pid.bind u32OfI64 = some r.previousPid
    ∧ ledger.previousTokenMatches r.holder row.attemptToken r.previousToken = true

/-- The row is as the rotation left it. -/
def Recorded : Prop :=
  ∃ row, ledger.permits.get? r.holder = some row
    ∧ RecordsRotation row r.generation r.previousPid r.previousToken r.targetToken r.claimToken

def valid : Bool := !rotationArgsInvalid r.previousPid r.previousToken r.targetToken r.claimToken

variable {r ledger state pid now}

/-- A rotation that is not made changes nothing. -/
theorem ask_cases :
    ((r.ask ledger state pid now).1 ≠ .ok .rotated ∧ (r.ask ledger state pid now).2 = ledger)
      ∨ ((r.ask ledger state pid now).1 = .ok .rotated ∧ r.valid = true ∧ r.Owned ledger pid
        ∧ r.Proven ledger ∧ r.Recorded (r.ask ledger state pid now).2
        ∧ (r.ask ledger state pid now).2.permitMeta = ledger.permitMeta) := by
  by_cases hargs : rotationArgsInvalid r.previousPid r.previousToken r.targetToken r.claimToken
  · rw [ask, rotateScalesetAttemptForRecovery, if_pos hargs]
    exact .inl ⟨by rintro ⟨⟩, rfl⟩
  rw [ask, rotateScalesetAttemptForRecovery, if_neg hargs]
  cases hbody : rotateScalesetAttemptTx r.holder state r.generation r.previousPid
      r.previousToken r.targetToken r.claimToken pid now ledger with
  | fail _ =>
    rw [immediate_of_fail hbody]
    exact .inl ⟨by rintro ⟨⟩, rfl⟩
  | drop =>
    rw [immediate_of_drop hbody]
    exact .inl ⟨fun h => rotateScalesetAttemptTx_drop hbody (Except.ok.inj h), rfl⟩
  | commit =>
    rw [immediate_of_commit hbody]
    obtain ⟨hclaim, row, hrow,
      ⟨rfl, -, rfl⟩ | ⟨rfl, -, hgen, hpid, htoken, hmoves, hrecorded⟩⟩ :=
      rotateScalesetAttemptTx_commit hbody
    · exact .inl ⟨by rintro ⟨⟩, rfl⟩
    · exact .inr ⟨rfl, by rw [valid, Bool.eq_false_iff.mpr hargs]; rfl, hclaim,
        ⟨hgen, row, hrow, hpid, htoken⟩, hrecorded, hmoves.permitMeta⟩

/-- The record on the row answers the same request, whoever owns the claim by
    now and whatever epoch it is. -/
theorem ask_recorded (hvalid : r.valid = true) (hrec : r.Recorded ledger)
    (hfits : (r.generation : Int) ≤ i64Max) (hepoch : r.generation ≤ ledger.generation) :
    (r.ask ledger state pid now).2 = ledger
      ∧ ((r.ask ledger state pid now).1 = .ok .alreadyRotated ↔ r.Owned ledger pid) := by
  obtain ⟨row, hrow, hrec⟩ := hrec
  have hgen : row.generation = (r.generation : Int) := by
    rw [hrec.generation, i64OfU64, min_eq_left hfits]
  rw [ask, rotateScalesetAttemptForRecovery, if_neg (by simpa [valid] using hvalid)]
  by_cases hclaim : ledger.recoveryClaim = some (r.claimToken, (pid : Int))
  · have hbody : rotateScalesetAttemptTx r.holder state r.generation r.previousPid
        r.previousToken r.targetToken r.claimToken pid now ledger
          = .commit .alreadyRotated ledger := by
      simp [rotateScalesetAttemptTx, alreadyRotatedTx, hclaim, hrow, hrec.lane, hrec.token,
        hrec.claim, hrec.previousPid, hrec.previousToken, hgen, not_lt.mpr hepoch]
    rw [immediate_of_commit hbody]
    exact ⟨rfl, fun _ => hclaim, fun _ => rfl⟩
  · have hbody : rotateScalesetAttemptTx r.holder state r.generation r.previousPid
        r.previousToken r.targetToken r.claimToken pid now ledger = .drop .staleAttempt :=
      if_pos hclaim
    rw [immediate_of_drop hbody]
    exact ⟨rfl, by rintro ⟨⟩, fun h => absurd h hclaim⟩

end RotationRequest

/-- In any run a rotation changes a row only for the owner of the recovery
    claim, from the row's own pid and token and in the current epoch.  While the
    row stays as the rotation left it, the same request changes nothing and is
    answered by `AlreadyRotated` to whoever owns the claim of that token by then. -/
theorem rotation_exactly_once (ops : List LedgerOp) (r : RotationRequest) (state : PermitState)
    (pid : Nat) (now : UnixTime) : let ledger := runLedger .empty ops
    let out := r.ask ledger state pid now
    (out.1 ≠ .ok .rotated → out.2 = ledger)
      ∧ (out.1 = .ok .rotated → r.Owned ledger pid ∧ r.Proven ledger
        ∧ ∀ (later : List LedgerOp) (state' : PermitState) (pid' : Nat) (now' : UnixTime),
          let after := runLedger out.2 later
          let again := r.ask after state' pid' now'
          after.permits.get? r.holder = out.2.permits.get? r.holder →
            again.2 = after ∧ (again.1 = .ok .alreadyRotated ↔ r.Owned after pid')) := by
  intro ledger _
  obtain ⟨hout, hsame⟩ | ⟨hout, hvalid, howned, hproven, ⟨row, hrow, hrec⟩, hmeta⟩ :=
    @RotationRequest.ask_cases r ledger state pid now
  · exact ⟨fun _ => hsame, fun h => absurd h hout⟩
  refine ⟨fun h => absurd hout h, fun _ => ⟨howned, hproven, ?_⟩⟩
  intro later _ _ _ _ _ hkept
  -- the rotation was of the epoch it found, which fits and is never left behind
  have hfits : ledger.permitMeta.generation ≤ i64Max := (@generation_run .empty (by decide) ops).2
  have hepoch := (generation_run (hmeta ▸ hfits) later).1
  rw [hmeta] at hepoch
  have hgen : r.generation = ledger.permitMeta.generation.toNat := hproven.1.symm
  refine RotationRequest.ask_recorded hvalid ⟨row, hkept.trans hrow, hrec⟩ ?_ ?_
  · have hmax : (0 : Int) ≤ i64Max := by decide
    omega
  · rw [hgen]
    exact Int.toNat_le_toNat hepoch

end Velnor.Control
