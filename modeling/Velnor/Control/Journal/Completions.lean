/-
  What a completion event found and what it wrote when it was not rejected,
  one lemma for each arm of the reducer that touches the outbox.
-/
import Velnor.Control.Journal.Reduce

namespace Velnor.Control.Journal

namespace FleetState

variable {s : FleetState} {jobId : JobId} {generation : Generation}

theorem rowIsLive_iff {row : OutboxRecord} :
    s.rowIsLive generation row = true
      ↔ row.generation = generation ∧ row.isPending = true ∧ s.outboxOwnerIsProven row = true := by
  unfold rowIsLive
  rw [Bool.and_eq_true, Bool.and_eq_true, decide_eq_true_iff, and_assoc]

/-- A completion intent is rejected, repeats a prepared row, or writes one. -/
theorem completionIntended_cases {now : UnixTime} {payload : String} :
    s.completionIntended now jobId generation payload = .reject s
      ∨ ∃ job, s.job? jobId = some job ∧ job.provisional = false ∧ job.generation = generation
        ∧ (s.slot? job.slotId).map SlotRecord.generation = some generation
        ∧ ((∃ row, s.row? jobId = some row ∧ s.rowIsLive generation row = true
              ∧ row.payloadSha256 = payload
              ∧ s.completionIntended now jobId generation payload
                = .accept (s.setJob jobId fun job => { job with phase := .completing }) [])
          ∨ (s.row? jobId = none
              ∧ s.completionIntended now jobId generation payload
                = .accept
                  { s.setJob jobId fun job => { job with phase := .completing } with
                    outbox := s.outbox
                      ++ [intendedRow jobId job.slotId generation payload (unixSecs now)] }
                  [.sendCompletion jobId generation payload])) := by
  dsimp only [completionIntended]
  cases hj : s.job? jobId with
  | none => exact .inl rfl
  | some job =>
    dsimp only
    split
    case isTrue => exact .inl rfl
    case isFalse hguard =>
      simp only [not_or, not_not, Bool.not_eq_true] at hguard
      obtain ⟨hprov, hgen, hslot⟩ := hguard
      cases hr : s.row? jobId with
      | none => exact .inr ⟨job, rfl, hprov, hgen, hslot, .inr ⟨rfl, rfl⟩⟩
      | some row =>
        dsimp only
        split
        case isTrue => exact .inl rfl
        case isFalse hrow =>
          simp only [not_or, not_not, Bool.not_eq_true, Bool.not_eq_false'] at hrow
          obtain ⟨hrgen, hpending, hpayload, howner⟩ := hrow
          exact .inr ⟨job, rfl, hprov, hgen, hslot,
            .inl ⟨row, rfl, rowIsLive_iff.mpr ⟨hrgen, hpending, howner⟩, hpayload, rfl⟩⟩

/-- An arm that changes a row rejects, or it found the row live and as its guard
    wants it. -/
def RowArm (s : FleetState) (jobId : JobId) (generation : Generation)
    (Found : OutboxRecord → Prop) (arm out : ReduceOutcome) : Prop :=
  arm = .reject s ∨ ∃ row, s.row? jobId = some row ∧ s.rowIsLive generation row = true
    ∧ Found row ∧ arm = out

theorem row_cases {arm out : ReduceOutcome} {guard : OutboxRecord → Bool}
    {Found : OutboxRecord → Prop}
    (harm : arm = match s.row? jobId with
      | some row => if guard row then out else .reject s
      | none => .reject s)
    (hguard : ∀ row, guard row = true → s.rowIsLive generation row = true ∧ Found row) :
    RowArm s jobId generation Found arm out := by
  cases hr : s.row? jobId with
  | none => exact .inl (harm.trans (by rw [hr]))
  | some row =>
    rw [hr] at harm
    by_cases hrow : guard row = true
    · obtain ⟨hlive, hfound⟩ := hguard row hrow
      exact .inr ⟨row, hr, hlive, hfound, harm.trans (if_pos hrow)⟩
    · exact .inl (harm.trans (if_neg hrow))

theorem completionSendStarted_cases :
    RowArm s jobId generation (·.sendStarted = false) (s.completionSendStarted jobId generation)
      (.accept (s.setRow jobId fun row => { row with sendStarted := true }) []) := by
  refine row_cases rfl fun row hrow => ?_
  rwa [Bool.and_eq_true, Bool.not_eq_true'] at hrow

theorem remoteAcked_cases :
    RowArm s jobId generation (·.sendStarted = true) (s.remoteAcked jobId generation)
      (s.closeCompletion jobId generation fun row => { row with remoteAcked := true }) := by
  refine row_cases rfl fun row hrow => ?_
  rw [Bool.and_eq_true, Bool.and_eq_true] at hrow
  exact hrow.1

/-- The row with one more charged attempt. -/
def charged (permanent : Bool) (row : OutboxRecord) : OutboxRecord :=
  { row with
    attempts := saturatingSucc row.attempts, permanent := row.permanent || permanent }

theorem completionAttemptFailed_cases {permanent : Bool} :
    RowArm s jobId generation (·.sendStarted = true)
      (s.completionAttemptFailed jobId generation permanent)
      (.accept (s.setRow jobId (charged permanent)) []) :=
  row_cases rfl fun _ => Bool.and_eq_true_iff.mp

theorem completionUnresolvable_cases {now : UnixTime} :
    RowArm s jobId generation (·.budgetExhausted (unixSecs now) = true)
      (s.completionUnresolvable now jobId generation)
      (s.closeCompletion jobId generation fun row => { row with abandoned := true }) :=
  row_cases rfl fun _ => Bool.and_eq_true_iff.mp

theorem completionPayloadLost_cases {payload : String} :
    RowArm s jobId generation (·.payloadSha256 = payload)
      (s.completionPayloadLost jobId generation payload)
      (s.closeCompletion jobId generation fun row => { row with abandoned := true }) := by
  refine row_cases rfl fun row hrow => ?_
  rw [Bool.and_eq_true, Bool.and_eq_true, decide_eq_true_iff] at hrow
  exact hrow.1

end FleetState

end Velnor.Control.Journal
