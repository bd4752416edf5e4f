/-
  The lease that fences retention maintenance (store/retention.rs): a row with an
  owner, an expiry and a generation, against the owner and generation that a
  holder acquired.

  Each call is one transaction. What a batch deletes is up to it: the other
  tables are the parameter `δ`, and whatever stops a batch is a failure of its
  operation. The clock may read anything.
-/
import Velnor.Relational.Script
import Velnor.Text.Str

namespace Velnor.Control.EventStream

open Relational Option

/-- The capability of one acquisition. -/
structure RetentionLease where
  owner : Str
  generation : Nat
  deriving DecidableEq, Repr

/-- The row of `retention_lease`. -/
structure LeaseRow where
  owner : Option Str
  expiresAt : Option Int
  generation : Int
  deriving DecidableEq, Repr

structure LeaseStore (δ : Type) where
  lease : Option LeaseRow
  data : δ

inductive LeaseError where
  | owner | duration | clock | generation | missing | lost | operation
  deriving DecidableEq, Repr

def validateRetentionLeaseOwner (owner : Str) : Except LeaseError Unit :=
  refuseIf (¬ (8 ≤ owner.length ∧ owner.length ≤ 128)
    ∨ ¬ owner.all fun c => c.isAlphanum || c ∈ ['-', '_', '.']) .owner

/-- `MAX_RETENTION_LEASE_DURATION`, in seconds. -/
def maxRetentionLeaseSeconds : Nat := 30 * 60

/-- The seconds of a duration in nanoseconds. -/
def validateRetentionLeaseDuration (nanos : Nat) : Except LeaseError Nat := do
  refuseIf (nanos = 0 ∨ nanos % 10 ^ 9 ≠ 0 ∨ maxRetentionLeaseSeconds * 10 ^ 9 < nanos) .duration
  return nanos / 10 ^ 9

/-- `i64::try_from`. -/
def toI64 (n : Nat) (error : LeaseError) : Except LeaseError Int := do
  refuseIf (2 ^ 63 ≤ n) error
  return n

/-- The row is the capability's and has not expired. -/
abbrev LeaseRow.Live (row : LeaseRow) (lease : RetentionLease) (now : Int) : Prop :=
  row.owner = some lease.owner ∧ row.generation = lease.generation ∧ row.expiresAt.any (now < ·)

section Calls

variable {δ : Type} (s : LeaseStore δ) (lease : RetentionLease) (nowUnix nanos : Nat)

/-- The update of `expires_at`, where the capability is live. -/
def LeaseStore.extend (now expiresAt : Int) : Option (LeaseStore δ) :=
  (s.lease.filter (·.Live lease now)).map fun row =>
    { s with lease := some { row with expiresAt := some expiresAt } }

def tryAcquireRetentionLeaseAt (owner : Str) :
    Except LeaseError (Option RetentionLease × LeaseStore δ) := do
  validateRetentionLeaseOwner owner
  let seconds ← validateRetentionLeaseDuration nanos
  let now ← toI64 nowUnix .clock
  let expiresAt ← toI64 (nowUnix + seconds) .clock
  let row ← orRefuse s.lease .missing
  refuseIf (row.generation < 0) .generation
  if row.owner.any (· ≠ []) ∧ row.expiresAt.any (now < ·) then return (none, s)
  else
    let generation := row.generation.toNat + 1
    let stored ← toI64 generation .generation
    return (some ⟨owner, generation⟩, { s with lease := some ⟨some owner, some expiresAt, stored⟩ })

def releaseRetentionLease : Except LeaseError (Bool × LeaseStore δ) := do
  let generation ← toI64 lease.generation .generation
  match s.lease.filter fun row => row.owner = some lease.owner ∧ row.generation = generation with
  | none => return (false, s)
  | some row =>
    return (true, { s with lease := some { row with owner := none, expiresAt := none } })

def renewRetentionLeaseAt : Except LeaseError (Bool × LeaseStore δ) := do
  let seconds ← validateRetentionLeaseDuration nanos
  let now ← toI64 nowUnix .clock
  let expiresAt ← toI64 (nowUnix + seconds) .clock
  let _ ← toI64 lease.generation .generation
  match s.extend lease now expiresAt with
  | none => return (false, s)
  | some s => return (true, s)

/-- The transaction of `execute_prune_batch`: the lease is required, the batch
    deletes, and the lease is extended before the commit. -/
def executePruneBatch (required fenced : Int) (operation : LeaseStore δ → Except LeaseError δ) :
    Except LeaseError (Unit × LeaseStore δ) := do
  let _ ← toI64 lease.generation .generation
  refuseIf (¬ s.lease.any (·.Live lease required)) .lost
  let data ← operation s
  refuseIf (2 ^ 63 ≤ fenced + maxRetentionLeaseSeconds) .clock
  let s ← orRefuse (LeaseStore.extend { s with data := data } lease fenced
    (fenced + maxRetentionLeaseSeconds)) .lost
  return ((), s)

end Calls

/-! ## Interleavings -/

section Interleavings

variable {δ : Type}

inductive LeaseCall (δ : Type) where
  | acquire (owner : Str) (nowUnix nanos : Nat)
  | release (lease : RetentionLease)
  | renew (lease : RetentionLease) (nowUnix nanos : Nat)
  | prune (lease : RetentionLease) (required fenced : Int)
      (operation : LeaseStore δ → Except LeaseError δ)

/-- A call that fails leaves the store as it is. -/
def LeaseStore.after {α : Type} (s : LeaseStore δ) :
    Except LeaseError (α × LeaseStore δ) → LeaseStore δ
  | .ok (_, s') => s'
  | .error _ => s

def LeaseCall.step (s : LeaseStore δ) : LeaseCall δ → LeaseStore δ
  | acquire owner nowUnix nanos => s.after (tryAcquireRetentionLeaseAt s nowUnix nanos owner)
  | release lease => s.after (releaseRetentionLease s lease)
  | renew lease nowUnix nanos => s.after (renewRetentionLeaseAt s lease nowUnix nanos)
  | prune lease required fenced operation =>
    s.after (executePruneBatch s lease required fenced operation)

def LeaseStore.generation (s : LeaseStore δ) : Int := s.lease.elim 0 LeaseRow.generation

variable {s s' : LeaseStore δ} {lease : RetentionLease} {nowUnix nanos : Nat}

theorem generation_eq {row : LeaseRow} (h : s.lease = some row) :
    s.generation = row.generation := by
  rw [LeaseStore.generation, h, elim_some]

theorem generation_acquire {owner : Str} {acquired : Option RetentionLease}
    (h : tryAcquireRetentionLeaseAt s nowUnix nanos owner = .ok (acquired, s')) :
    s.generation ≤ s'.generation ∧ ∀ lease ∈ acquired,
      s.generation < lease.generation ∧ s'.generation = lease.generation := by
  simp only [tryAcquireRetentionLeaseAt, bind_eq_ok, orRefuse_eq_ok, refuseIf_eq_ok] at h
  obtain ⟨_, -, _, -, _, -, _, -, row, hrow, _, hnonneg, h⟩ := h
  split at h
  · cases h
    exact ⟨Int.le_refl _, nofun⟩
  obtain ⟨_, hstored, h⟩ := bind_eq_ok.mp h
  obtain ⟨_, -, hstored⟩ := bind_eq_ok.mp hstored
  cases hstored
  cases h
  have hlt : row.generation < ((row.generation.toNat + 1 : Nat) : Int) := by omega
  rw [generation_eq hrow]
  refine ⟨Int.le_of_lt hlt, ?_⟩
  rintro _ ⟨⟩
  exact ⟨hlt, rfl⟩

theorem generation_release {changed : Bool}
    (h : releaseRetentionLease s lease = .ok (changed, s')) : s'.generation = s.generation := by
  obtain ⟨_, -, h⟩ := bind_eq_ok.mp h
  split at h
  · cases h
    rfl
  case h_2 hrow =>
    cases h
    exact (generation_eq (filter_eq_some_iff.mp hrow).1).symm

theorem generation_extend {now expiresAt : Int} (h : s.extend lease now expiresAt = some s') :
    s'.generation = s.generation ∧ ∃ row, s.lease = some row ∧ row.Live lease now := by
  obtain ⟨row, hrow, rfl⟩ := map_eq_some_iff.mp h
  obtain ⟨hmem, hlive⟩ := filter_eq_some_iff.mp hrow
  exact ⟨(generation_eq hmem).symm, row, hmem, of_decide_eq_true hlive⟩

theorem generation_renew {changed : Bool}
    (h : renewRetentionLeaseAt s lease nowUnix nanos = .ok (changed, s')) :
    s'.generation = s.generation := by
  simp only [renewRetentionLeaseAt, bind_eq_ok] at h
  obtain ⟨_, -, _, -, _, -, _, -, h⟩ := h
  split at h
  · cases h
    rfl
  case h_2 hextend =>
    cases h
    exact (generation_extend hextend).1

/-- A batch that commits is fenced by its own lease, at both readings. -/
theorem live_of_prune {required fenced : Int} {operation : LeaseStore δ → Except LeaseError δ}
    (h : executePruneBatch s lease required fenced operation = .ok ((), s')) :
    s'.generation = s.generation
      ∧ ∃ row, s.lease = some row ∧ row.Live lease required ∧ row.Live lease fenced := by
  simp only [executePruneBatch, bind_eq_ok, orRefuse_eq_ok, refuseIf_eq_ok, not_not] at h
  obtain ⟨_, -, _, hrequired, _, -, _, -, _, hextend, h⟩ := h
  cases h
  obtain ⟨hsame, row, hmem, hlive⟩ := generation_extend hextend
  change s.lease = some row at hmem
  rw [hmem] at hrequired
  exact ⟨hsame, row, hmem, of_decide_eq_true hrequired, hlive⟩

theorem generation_le_after {α : Type} {outcome : Except LeaseError (α × LeaseStore δ)}
    (h : ∀ a t, outcome = .ok (a, t) → s.generation ≤ t.generation) :
    s.generation ≤ (s.after outcome).generation := by
  cases outcome with
  | error => exact Int.le_refl _
  | ok result => exact h result.1 result.2 rfl

theorem generation_le_step (s : LeaseStore δ) (call : LeaseCall δ) :
    s.generation ≤ (call.step s).generation := by
  cases call <;> refine generation_le_after fun _ _ h => ?_
  · exact (generation_acquire h).1
  · exact Int.le_of_eq (generation_release h).symm
  · exact Int.le_of_eq (generation_renew h).symm
  · exact Int.le_of_eq (live_of_prune h).1.symm

/-- A batch commits only under its own lease, unexpired; and whatever calls follow
    an acquisition, later acquisitions have later generations and no batch of an
    earlier one commits. -/
theorem retention_fenced {δ : Type} :
    (∀ (s s' : LeaseStore δ) lease required fenced operation,
        executePruneBatch s lease required fenced operation = .ok ((), s') →
        ∃ row, s.lease = some row ∧ row.Live lease required ∧ row.Live lease fenced)
    ∧ ∀ (s s' : LeaseStore δ) lease owner nowUnix nanos,
        tryAcquireRetentionLeaseAt s nowUnix nanos owner = .ok (some lease, s') →
        ∀ (calls : List (LeaseCall δ)) (t : LeaseStore δ),
          (∀ next owner nowUnix nanos,
            tryAcquireRetentionLeaseAt (run LeaseCall.step s' calls) nowUnix nanos owner
              = .ok (some next, t) → lease.generation < next.generation)
          ∧ ∀ held required fenced operation,
            executePruneBatch (run LeaseCall.step s' calls) held required fenced operation
              = .ok ((), t) → lease.generation ≤ held.generation := by
  refine ⟨fun _ _ _ _ _ _ h => (live_of_prune h).2, fun s s' lease _ _ _ h calls t => ?_⟩
  obtain ⟨-, hacquired⟩ := (generation_acquire h).2 lease rfl
  have hle : s'.generation ≤ (run LeaseCall.step s' calls).generation :=
    run_preserves (I := fun t : LeaseStore δ => s'.generation ≤ t.generation)
      (fun t call hle => Int.le_trans hle (generation_le_step t call)) (Int.le_refl _) calls
  rw [hacquired] at hle
  constructor
  · intro next _ _ _ hnext
    exact Int.ofNat_lt.mp (Int.lt_of_le_of_lt hle ((generation_acquire hnext).2 next rfl).1)
  · intro held _ _ _ hcommit
    obtain ⟨-, row, hmem, ⟨-, hheld, -⟩, -⟩ := live_of_prune hcommit
    rw [generation_eq hmem, hheld] at hle
    exact Int.ofNat_le.mp hle

def firstHolder : Str := "holder-a"

def secondHolder : Str := "holder-b"

/-- A lease that runs out is taken over, and the new holder's batch commits. -/
theorem retention_fenced_takeover :
    ∃ (s s' t t' : LeaseStore Unit) (lease next : RetentionLease),
      tryAcquireRetentionLeaseAt s 0 (60 * 10 ^ 9) firstHolder = .ok (some lease, s')
      ∧ tryAcquireRetentionLeaseAt (run LeaseCall.step s' [.renew lease 30 (60 * 10 ^ 9)]) 90
        (60 * 10 ^ 9) secondHolder = .ok (some next, t)
      ∧ lease.generation < next.generation
      ∧ executePruneBatch t next 100 110 (fun _ => .ok ()) = .ok ((), t')
      ∧ t.lease.any (fun row => row.Live next 100 ∧ row.Live next 110)
      ∧ executePruneBatch t lease 100 110 (fun _ => .ok ()) = .error .lost := by
  refine ⟨⟨some ⟨none, none, 0⟩, ()⟩, ⟨some ⟨some firstHolder, some 60, 1⟩, ()⟩,
    ⟨some ⟨some secondHolder, some 150, 2⟩, ()⟩, ⟨some ⟨some secondHolder, some 1910, 2⟩, ()⟩,
    ⟨firstHolder, 1⟩, ⟨secondHolder, 2⟩, rfl, rfl, ?_, rfl, ?_, rfl⟩
  · exact (retention_fenced.2 ⟨some ⟨none, none, 0⟩, ()⟩ _ ⟨firstHolder, 1⟩ firstHolder 0
      (60 * 10 ^ 9) rfl [.renew ⟨firstHolder, 1⟩ 30 (60 * 10 ^ 9)] _).1 ⟨secondHolder, 2⟩
      secondHolder 90 (60 * 10 ^ 9) rfl
  · obtain ⟨_, ⟨⟩, hlive⟩ := retention_fenced.1 ⟨some ⟨some secondHolder, some 150, 2⟩, ()⟩ _
      ⟨secondHolder, 2⟩ 100 110 (fun _ => .ok ()) rfl
    exact decide_eq_true hlive

end Interleavings

end Velnor.Control.EventStream
