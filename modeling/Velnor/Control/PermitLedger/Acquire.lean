/-
  The transactions that give a permit an owner token (permit_ledger.rs):
  a fresh acquire, the adoption of a dead attempt's row for redelivery, and
  the recovery rotation of a Scale Set row.  Only the first inserts a row.

  The uuid a fresh attempt mints, the pid of the calling process and
  `is_alive` come from outside the ledger and are parameters.
-/
import Velnor.Control.PermitLedger.Demand

namespace Velnor.Control

open Relational List Option

/-- `DEMAND_STALE_AFTER_SECS`. -/
def demandStaleAfterSecs : Nat := 300

/-- Result of a fresh owner-bearing acquisition. -/
inductive AcquireAttemptOutcome where
  | acquired (attemptToken : Token)
  | alreadyHeld
  | full
  | deferred
  | closed
  | staleGeneration
  | notConfigured
  deriving DecidableEq, Repr

/-- Result of an attempt to adopt a holder's row for redelivery. -/
inductive AdoptOutcome where
  | adopted (attemptToken : Token)
  | liveHolder
  | missing
  | staleGeneration
  deriving DecidableEq, Repr

/-- Result of a staged Scale Set token rotation. -/
inductive AttemptRotationOutcome where
  | rotated
  | alreadyRotated
  | missing
  | staleAttempt
  | staleGeneration
  deriving DecidableEq, Repr

/-! ## The admission order -/

/-- A demand's place in the queue: its age, then its sequence. -/
def DemandRow.ticket (row : DemandRow) : Lex (Int × Int) := toLex (row.firstSeenUnix, row.sequence)

/-- `ORDER BY first_seen_unix, sequence`. -/
def inQueueOrder (rows : List DemandRow) : List DemandRow :=
  rows.insertionSort fun a b => a.ticket ≤ b.ticket

/-- The head of the queue has the smallest ticket. -/
theorem head_inQueueOrder {rows rest : List DemandRow} {first : DemandRow}
    (h : inQueueOrder rows = first :: rest) :
    first ∈ rows ∧ ∀ row ∈ rows, first.ticket ≤ row.ticket := by
  have hmem : ∀ row, row ∈ first :: rest ↔ row ∈ rows := by
    intro _
    rw [← h]
    exact mem_insertionSort _
  have hsorted : (first :: rest).Pairwise fun a b => a.ticket ≤ b.ticket := by
    rw [← h]
    exact pairwise_insertionSort _ _
  refine ⟨(hmem first).mp mem_cons_self, fun row hrow => ?_⟩
  rcases mem_cons.mp ((hmem row).mpr hrow) with rfl | hrest
  · exact le_rfl
  · exact (pairwise_cons.mp hsorted).1 row hrest

variable {freshAfter : Int} {permits : PermitTable}

namespace PermitLedger

/-- `WHERE state = 'eligible' AND updated_unix > ?`. -/
def freshEligible (db : PermitLedger) (freshAfter : Int) : List DemandRow :=
  db.demands.rows.filter fun row => row.state = .eligible ∧ freshAfter < row.updatedUnix

/-- The holder of the oldest fresh eligible demand of either lane. -/
def oldestEligible (db : PermitLedger) (freshAfter : Int) : Option Holder :=
  -- `LIMIT 1`
  (inQueueOrder (db.freshEligible freshAfter)).head?.map DemandRow.holder

variable {db db' mid ledger : PermitLedger} {row : DemandRow} {holder : Holder} {lane : PermitLane}
  {state : PermitState} {generation : Nat} {pid : Option Nat} {staged : Option Token} {uuid : Token}
  {now : UnixTime} {out : AcquireAttemptOutcome} {demand : PermitDemand}

theorem mem_freshEligible :
    row ∈ db.freshEligible freshAfter
      ↔ db.demands.get? row.holder = some row ∧ row.state = .eligible
        ∧ freshAfter < row.updatedUnix := by
  rw [freshEligible, Table.get?_eq_some_iff]
  simp

/-- `sequence` is `UNIQUE`, so two demands never share a ticket. -/
theorem holder_eq_of_ticket {h h' : Holder} {row' : DemandRow} (hrow : db.demands.get? h = some row)
    (hrow' : db.demands.get? h' = some row') (heq : row.ticket = row'.ticket) : h = h' := by
  have hpair : (row.firstSeenUnix, row.sequence) = (row'.firstSeenUnix, row'.sequence) :=
    toLex.injective heq
  exact Table.eq_of_uniq hrow hrow' (Prod.mk.inj hpair).2

/-- The query answers `holder` exactly when its row is fresh and eligible and
    no fresh eligible row has an older ticket. -/
theorem oldestEligible_eq_some_iff (hrow : db.demands.get? holder = some row) :
    db.oldestEligible freshAfter = some holder
      ↔ row ∈ db.freshEligible freshAfter
        ∧ ∀ r ∈ db.freshEligible freshAfter, row.ticket ≤ r.ticket := by
  unfold oldestEligible
  cases hqueue : inQueueOrder (db.freshEligible freshAfter) with
  | nil =>
    have hnone : db.freshEligible freshAfter = [] := by
      have hperm := perm_insertionSort (fun a b : DemandRow => a.ticket ≤ b.ticket)
        (db.freshEligible freshAfter)
      rw [← inQueueOrder, hqueue] at hperm
      exact hperm.nil_eq.symm
    simp [hnone]
  | cons first =>
    obtain ⟨hmem, hmin⟩ := head_inQueueOrder hqueue
    have hget := (mem_freshEligible.mp hmem).1
    rw [head?_cons, map_some, some_inj]
    constructor
    · rintro rfl
      cases hrow.symm.trans hget
      exact ⟨hmem, hmin⟩
    · rintro ⟨hfresh, hold⟩
      -- two rows at the head have one ticket, and tickets are not shared
      exact holder_eq_of_ticket hget hrow (le_antisymm (hmin row hfresh) (hold first hmem))

/-! ## Acquire -/

/-- A holder that already has a row: only the exact staged token in the exact
    state is told it owns the permit. -/
def acquireHeldTx (holder : Holder) (lane : PermitLane) (state : PermitState)
    (stagedAttemptToken : Option Token) (held : PermitRow) (db : PermitLedger) :
    TxEnd PermitLedger LedgerError AcquireAttemptOutcome :=
  if held.lane ≠ lane then .fail (.demandLaneMismatch holder lane held.lane)
  -- the same staged acquire again, its first answer lost
  else if stagedAttemptToken = some held.attemptToken ∧ held.state = state then
    match db.demand holder with
    | none => .fail (.unknownHolder holder)
    | some demand =>
      match checkDemandLane holder demand lane with
      | .error error => .fail error
      | .ok () =>
        -- this answer returns before the commit
        if demand.state ≠ .granted then .drop .alreadyHeld
        else .commit (.acquired held.attemptToken) db
  else .commit .alreadyHeld db

/-- The caller's own demand becomes eligible and fresh before the query. -/
def requeue (db : PermitLedger) (holder : Holder) (state : DemandState) (now : Int) :
    PermitLedger :=
  if state = .granted then
    -- no capacity is held for it any more
    db.setDemand holder .eligible now
  else if state = .waiting then
    -- redelivery revives a parked demand at its original age
    db.setDemand holder .eligible now
  else db.touchDemand holder now

/-- The row a fresh acquire inserts. -/
def freshPermitRow (holder : Holder) (lane : PermitLane) (state : PermitState)
    (generation : Nat) (pid : Option Nat) (attemptToken : Token) (now : UnixTime) : PermitRow where
  holder := holder
  lane := lane
  state := state
  acquiredUnix := i64OfU64 now.secs
  updatedUnix := i64OfU64 now.secs
  generation := i64OfU64 generation
  pid := pid.map Int.ofNat
  attemptToken := attemptToken
  recoveryClaimToken := none
  recoveryPreviousPid := none
  recoveryPreviousToken := none

/-- Capacity, then age, then the insert. -/
def admitTx (row : PermitRow) (max : Nat) (now : UnixTime) (db : PermitLedger) :
    TxEnd PermitLedger LedgerError AcquireAttemptOutcome :=
  if max ≤ db.permits.size then .commit .full db
  else
    match db.oldestEligible (i64OfU64 (now.secs - demandStaleAfterSecs)) with
    -- `query_row` on an empty result
    | none => .fail .storage
    | some oldest =>
      if oldest ≠ row.holder then .commit .deferred db
      else
        -- the insert can only fail on the `UNIQUE` token
        match db.permits.insert? row with
        | none => .fail .storage
        | some permits =>
          .commit (.acquired row.attemptToken)
            ({ db with permits := permits }.setDemand row.holder .granted (i64OfU64 now.secs))

/-- The body of `acquire_attempt_with_token`. -/
def acquireAttemptTx (holder : Holder) (lane : PermitLane) (state : PermitState)
    (generation : Nat) (pid : Option Nat) (stagedAttemptToken : Option Token) (uuid : Token)
    (now : UnixTime) (db : PermitLedger) :
    TxEnd PermitLedger LedgerError AcquireAttemptOutcome :=
  if db.generation ≠ generation then .drop .staleGeneration
  else
    match db.permits.get? holder with
    | some held => acquireHeldTx holder lane state stagedAttemptToken held db
    | none =>
      match db.maxJobs with
      | none => .drop .notConfigured
      | some max =>
        match db.ensureDemandTx holder lane "" now.secs now.secs .eligible with
        | .error error => .fail error
        | .ok (demand, db) =>
          -- the demand just ensured goes with the transaction
          if demand.state = .terminal ∨ demand.state = .cancelled then .drop .closed
          else
            admitTx
              (freshPermitRow holder lane state generation pid (stagedAttemptToken.getD uuid) now)
              max now (db.requeue holder demand.state (i64OfU64 now.secs))

section

variable (ledger holder)

def acquireAttemptWithToken (lane : PermitLane) (state : PermitState) (generation : Nat)
    (pid : Option Nat) (stagedAttemptToken : Option Token) (uuid : Token) (now : UnixTime) :
    Except LedgerError AcquireAttemptOutcome × PermitLedger :=
  immediate ledger (acquireAttemptTx holder lane state generation pid stagedAttemptToken uuid now)

/-- Acquire one permit under a fresh uuid. -/
def acquireAttempt (lane : PermitLane) (state : PermitState) (generation : Nat) (pid : Option Nat)
    (uuid : Token) (now : UnixTime) :
    Except LedgerError AcquireAttemptOutcome × PermitLedger :=
  ledger.acquireAttemptWithToken holder lane state generation pid none uuid now

/-- Acquire a Scale Set permit under a token already persisted in its stage; no
    uuid is minted. -/
def acquireScalesetAttemptWithToken (state : PermitState) (generation : Nat) (pid : Option Nat)
    (attemptToken : Token) (now : UnixTime) :
    Except LedgerError AcquireAttemptOutcome × PermitLedger :=
  if attemptToken.isEmpty then (.error (.staleAttempt holder), ledger)
  else
    ledger.acquireAttemptWithToken holder .scaleSet state generation pid (some attemptToken)
      attemptToken now

/-- It fails before a transaction, or is the common acquire. -/
theorem acquireScalesetAttemptWithToken_cases (state : PermitState) (generation : Nat)
    (pid : Option Nat) (token : Token) (now : UnixTime) :
    ledger.acquireScalesetAttemptWithToken holder state generation pid token now
        = (.error (.staleAttempt holder), ledger)
      ∨ ledger.acquireScalesetAttemptWithToken holder state generation pid token now
        = ledger.acquireAttemptWithToken holder .scaleSet state generation pid (some token) token
            now := by
  unfold acquireScalesetAttemptWithToken
  split
  · exact .inl rfl
  · exact .inr rfl

end

/-! ### What a committed acquire did -/

@[simp] theorem permits_requeue (db : PermitLedger) (holder : Holder) (state : DemandState)
    (now : Int) : (db.requeue holder state now).permits = db.permits := by
  unfold requeue
  split_ifs <;> rfl

theorem touches_requeue {target : Option Holder} (db : PermitLedger) (holder : Holder)
    (state : DemandState) (now : Int) : Touches target db (db.requeue holder state now) := by
  unfold requeue
  split_ifs
  · exact .setDemandWhere ..
  · exact .setDemandWhere ..
  · exact .touchDemand ..

/-- Whatever open state the row was in, the query sees it eligible and fresh,
    at its own age. -/
theorem get?_requeue (hrow : db.demands.get? holder = some row) (hopen : row.state.closed = false)
    (now : Int) (k : Holder) :
    (db.requeue holder row.state now).demands.get? k
      = if k = holder then some { row with state := .eligible, updatedUnix := now }
        else db.demands.get? k := by
  cases hs : row.state with
  | granted | waiting => simp [requeue, get?_setDemand, hrow]
  | eligible =>
    have heq : { row with updatedUnix := now }
        = { row with state := .eligible, updatedUnix := now } := by rw [← hs]
    simp [requeue, touchDemand, Table.get?_update, hrow, heq]
  | terminal | cancelled =>
    rw [hs] at hopen
    cases hopen

theorem admitTx_commit {row : PermitRow} {max : Nat}
    (h : admitTx row max now db = .commit out db') :
    ((out = .full ∨ out = .deferred) ∧ db' = db)
      ∨ (out = .acquired row.attemptToken ∧ db.permits.size < max
        ∧ db.oldestEligible (i64OfU64 (now.secs - demandStaleAfterSecs)) = some row.holder
        ∧ ∃ permits, db.permits.insert? row = some permits
          ∧ db' = { db with permits := permits }.setDemand row.holder .granted
              (i64OfU64 now.secs)) := by
  unfold admitTx at h
  split at h
  · cases h
    exact .inl ⟨.inl rfl, rfl⟩
  rename_i hroom
  split at h
  · cases h
  rename_i hold
  split at h
  · cases h
    exact .inl ⟨.inr rfl, rfl⟩
  rename_i hsame
  split at h
  · cases h
  rename_i permits hins
  cases h
  rw [not_not.mp hsame] at hold
  exact .inr ⟨rfl, Nat.lt_of_not_le hroom, hold, permits, hins, rfl⟩

theorem acquireHeldTx_commit {held : PermitRow}
    (h : acquireHeldTx holder lane state staged held db = .commit out db') :
    db' = db ∧ (out = .alreadyHeld ∨ out = .acquired held.attemptToken) := by
  unfold acquireHeldTx at h
  split_ifs at h
  · split at h
    · cases h
    split at h
    · cases h
    · split_ifs at h
      cases h
      exact ⟨rfl, .inr rfl⟩
  · cases h
    exact ⟨rfl, .inl rfl⟩

/-- The caller was fenced in, and either it held the permit already and nothing
    changed, or its open demand went through `admitTx`. -/
theorem acquireAttemptTx_commit
    (h : acquireAttemptTx holder lane state generation pid staged uuid now db = .commit out db') :
    db.generation = generation
      ∧ ((∃ held, db.permits.get? holder = some held ∧ db' = db)
        ∨ (db.permits.get? holder = none ∧ ∃ max demand mid,
          db.maxJobs = some max
          ∧ db.ensureDemandTx holder lane "" now.secs now.secs .eligible = .ok (demand, mid)
          ∧ demand.state.closed = false
          ∧ admitTx (freshPermitRow holder lane state generation pid (staged.getD uuid) now)
              max now (mid.requeue holder demand.state (i64OfU64 now.secs))
            = .commit out db')) := by
  unfold acquireAttemptTx at h
  split at h
  · cases h
  rename_i hgen
  refine ⟨not_not.mp hgen, ?_⟩
  split at h
  · rename_i held hheld
    exact .inl ⟨held, hheld, (acquireHeldTx_commit h).1⟩
  rename_i hnone
  split at h
  · cases h
  rename_i max hmax
  split at h
  · cases h
  rename_i demand mid hens
  split at h
  · cases h
  · rename_i hopen
    exact .inr ⟨hnone, max, demand, mid, hmax, hens, DemandState.closed_eq_false_iff.mpr hopen, h⟩

/-- What the outcome says happened to occupancy: only a token handed to a
    holder that had no permit is a grant. -/
def acquireEvent (ledger : PermitLedger) (holder : Holder) :
    Except LedgerError AcquireAttemptOutcome → LedgerEvent
  | .ok (.acquired attemptToken) =>
    if (ledger.permits.get? holder).isNone then .on holder (.grant attemptToken) else .internal
  | _ => .internal

/-- The demand the acquire leaves behind: of the caller's lane, and eligible. -/
theorem queued_requeue {initialState : DemandState}
    (hE : Ensured db holder lane initialState demand mid) (hopen : demand.state.closed = false)
    (now : Int) (k : Holder) :
    (mid.requeue holder demand.state now).queued k
      = if k = holder then some ⟨lane, .eligible⟩ else db.queued k := by
  obtain ⟨_, hrow, heq⟩ := map_eq_some_iff.mp hE.after
  obtain ⟨hlane, hstate⟩ := Queued.mk.inj heq
  rw [← hstate] at hopen
  rw [← hstate, queued, get?_requeue hrow hopen]
  by_cases hk : k = holder
  · rw [if_pos hk, if_pos hk, map_some, hlane]
  · rw [if_neg hk, if_neg hk]
    exact hE.queued_ne hk

@[simp] theorem holding_requeue (db : PermitLedger) (holder : Holder) (state : DemandState)
    (now : Int) (k : Holder) : (db.requeue holder state now).holding k = db.holding k := by
  rw [holding, permits_requeue]
  rfl

theorem queued_withPermits (db : PermitLedger) (permits : PermitTable) (k : Holder) :
    { db with permits := permits }.queued k = db.queued k := rfl

theorem holding_of_insert? {row : PermitRow} (hins : db.permits.insert? row = some permits)
    (k : Holder) : { db with permits := permits }.holding k
      = if k = row.holder then some ⟨row.lane, row.attemptToken⟩ else db.holding k := by
  rw [holding, Table.get?_of_insert? hins]
  by_cases hk : k = row.holder
  · rw [if_pos hk, if_pos hk]
    rfl
  · rw [if_neg hk, if_neg hk]
    rfl

/-- No rolled back acquire hands out a token. -/
theorem acquireAttemptTx_drop
    (h : acquireAttemptTx holder lane state generation pid staged uuid now db = .drop out)
    (token : Token) : out ≠ .acquired token := by
  rintro rfl
  unfold acquireAttemptTx acquireHeldTx admitTx at h
  repeat' split at h
  all_goals cases h

/-- A holder kept waiting has only taken its place in the queue. -/
theorem refines_requeue (hE : Ensured ledger holder lane .eligible demand mid)
    (hopen : demand.state.closed = false) (hfree : ledger.holding holder = none) (now : Int) :
    Refines ledger .internal (mid.requeue holder demand.state now) := by
  refine Refines.on_demand holder (fun k => ?_) (fun k hk => ?_) (fun _ => ?_) ?_
  · rw [holding_requeue, hE.holding]
  · rw [queued_requeue hE hopen, if_neg hk]
  · rw [queued_requeue hE hopen, if_pos rfl]
    rcases hE.queued_before with hb | ⟨hb, -⟩
    · rw [hb]
      exact .rejoin lane hopen
    · rw [hb]
      exact .enter lane
  · intro _ hp
    rw [hfree] at hp
    cases hp

/-- A row inserted for a holder without one, with its demand granted. -/
theorem refines_grant (row : PermitRow)
    (hE : Ensured ledger row.holder row.lane .eligible demand mid)
    (hopen : demand.state.closed = false) (hfree : ledger.holding row.holder = none) (now : Int)
    (hins : (mid.requeue row.holder demand.state now).permits.insert? row = some permits) :
    Refines ledger (.on row.holder (.grant row.attemptToken))
      ({ mid.requeue row.holder demand.state now with permits := permits }.setDemand row.holder
        .granted now) := by
  refine Refines.on_holder (fun k hk => ?_) ?_
  · simp only [view, holding_setDemand, holding_of_insert? hins, queued_setDemand,
      queued_withPermits, queued_requeue hE hopen, holding_requeue, hE.holding, if_neg hk]
  simp only [view, holding_setDemand, holding_of_insert? hins, queued_setDemand, queued_withPermits,
    queued_requeue hE hopen, hfree]
  refine .grant fun q hq => ?_
  rcases hE.queued_before with hb | ⟨hb, -⟩
  · cases hb.symm.trans hq
    exact ⟨rfl, hopen⟩
  · cases hb.symm.trans hq

variable (ledger holder lane state generation pid staged uuid now) in
theorem acquireAttemptWithToken_moves :
    Moves (some holder)
      (acquireEvent ledger holder
        (ledger.acquireAttemptWithToken holder lane state generation pid staged uuid now).1)
      ledger
      (ledger.acquireAttemptWithToken holder lane state generation pid staged uuid now).2 := by
  refine Moves.immediate ?_ ?_ fun _ => rfl
  · intro out db' hbody
    obtain ⟨-, ⟨_, hheld, rfl⟩ | ⟨hnone, _, demand, mid, -, hens, hopen, hadmitted⟩⟩ :=
      acquireAttemptTx_commit hbody
    · -- the holder's own row: nothing moved, whatever the answer was
      have hevent : acquireEvent db' holder (.ok out) = .internal := by
        cases out <;> simp [acquireEvent, hheld]
      rw [hevent]
      exact .refl ..
    · have hE := ensureDemandTx_ok hens
      have hfree := ledger.holding_eq_none_iff.mpr hnone
      have hqueued : Touches (some holder) ledger
          (mid.requeue holder demand.state (i64OfU64 now.secs)) :=
        (touches_ensureDemandTx hens).trans (touches_requeue ..)
      rcases admitTx_commit hadmitted with ⟨hout, rfl⟩ | ⟨rfl, -, -, _, hins, rfl⟩
      · have hevent : acquireEvent ledger holder (.ok out) = .internal := by
          rcases hout with rfl | rfl <;> rfl
        rw [hevent]
        exact ⟨hqueued, refines_requeue hE hopen hfree _⟩
      · have hevent : acquireEvent ledger holder (.ok (.acquired
            (freshPermitRow holder lane state generation pid (staged.getD uuid) now).attemptToken))
            = .on holder (.grant (staged.getD uuid)) := by
          simp [acquireEvent, hnone, freshPermitRow]
        rw [hevent]
        refine ⟨(hqueued.trans (.of_permits fun k hk => ?_)).trans (.setDemandWhere ..),
          refines_grant (freshPermitRow holder lane state generation pid (staged.getD uuid) now)
            hE hopen hfree _ hins⟩
        rw [Table.get?_of_insert? hins]
        exact if_neg hk
  · intro out hbody
    cases out with
    | acquired token => exact absurd rfl (acquireAttemptTx_drop hbody token)
    | _ => rfl

/-- Everything a fresh grant rests on: the fence, the room, an open demand of
    the caller's lane, and its place at the head of the queue. -/
theorem acquireAttemptWithToken_grant
    (h : (acquireEvent ledger holder
      (ledger.acquireAttemptWithToken holder lane state generation pid staged uuid now).1).isGrant
        = true) :
    ledger.generation = generation ∧ ledger.permits.get? holder = none
      ∧ ∃ max demand mid, ledger.maxJobs = some max ∧ ledger.permits.size < max
        ∧ ledger.ensureDemandTx holder lane "" now.secs now.secs .eligible = .ok (demand, mid)
        ∧ demand.state.closed = false
        ∧ (mid.requeue holder demand.state (i64OfU64 now.secs)).oldestEligible
            (i64OfU64 (now.secs - demandStaleAfterSecs)) = some holder := by
  cases hbody : acquireAttemptTx holder lane state generation pid staged uuid now ledger with
  | fail =>
    rw [acquireAttemptWithToken, immediate_of_fail hbody] at h
    cases h
  | drop out =>
    rw [acquireAttemptWithToken, immediate_of_drop hbody] at h
    cases out with
    | acquired token => exact absurd rfl (acquireAttemptTx_drop hbody token)
    | _ => cases h
  | commit out =>
    rw [acquireAttemptWithToken, immediate_of_commit hbody] at h
    obtain ⟨hgen, ⟨_, hheld, -⟩ | ⟨hnone, max, demand, mid, hmax, hens, hopen, hadmitted⟩⟩ :=
      acquireAttemptTx_commit hbody
    · cases out <;> simp [acquireEvent, hheld, LedgerEvent.isGrant] at h
    rcases admitTx_commit hadmitted with ⟨hout, -⟩ | ⟨-, hroom, hold, -⟩
    · rcases hout with rfl | rfl <;> cases h
    · rw [permits_requeue, (ensureDemandTx_ok hens).permits] at hroom
      exact ⟨hgen, hnone, max, demand, mid, hmax, hroom, hens, hopen, hold⟩

/-! ### What an acquire leaves of the tables -/

/-- An acquire that would insert `row` touches no other holder, and for a
    holder without a permit either inserts it or leaves none. -/
structure AcquireEffect (ledger : PermitLedger) (row : PermitRow)
    (out : Except LedgerError AcquireAttemptOutcome) (ledger' : PermitLedger) : Prop where
  permit_ne : ∀ k, k ≠ row.holder → ledger'.permits.get? k = ledger.permits.get? k
  queued_ne : ∀ k, k ≠ row.holder → ledger'.queued k = ledger.queued k
  free : ledger.permits.get? row.holder = none →
    (out = .ok (.acquired row.attemptToken) ∧ ledger'.permits.get? row.holder = some row
      ∧ ledger'.queued row.holder = some ⟨row.lane, .granted⟩)
    ∨ (ledger'.permits.get? row.holder = none ∧ out ≠ .ok .alreadyHeld
      ∧ ∀ token, out ≠ .ok (.acquired token))

theorem AcquireEffect.unchanged {row : PermitRow} {out : Except LedgerError AcquireAttemptOutcome}
    (h : ledger.permits.get? row.holder = none →
      out ≠ .ok .alreadyHeld ∧ ∀ token, out ≠ .ok (.acquired token)) :
    AcquireEffect ledger row out ledger :=
  ⟨fun _ _ => rfl, fun _ _ => rfl, fun hnone => .inr ⟨hnone, h hnone⟩⟩

theorem acquireAttemptTx_drop_free
    (h : acquireAttemptTx holder lane state generation pid staged uuid now db = .drop out)
    (hnone : db.permits.get? holder = none) : out ≠ .alreadyHeld := by
  rintro rfl
  unfold acquireAttemptTx admitTx at h
  simp only [hnone] at h
  repeat' split at h
  all_goals cases h

variable (ledger holder lane state generation pid staged uuid now) in
theorem acquireAttemptWithToken_effect :
    AcquireEffect ledger
      (freshPermitRow holder lane state generation pid (staged.getD uuid) now)
      (ledger.acquireAttemptWithToken holder lane state generation pid staged uuid now).1
      (ledger.acquireAttemptWithToken holder lane state generation pid staged uuid now).2 := by
  cases hbody : acquireAttemptTx holder lane state generation pid staged uuid now ledger with
  | fail =>
    rw [acquireAttemptWithToken, immediate_of_fail hbody]
    exact .unchanged fun _ => ⟨nofun, nofun⟩
  | drop =>
    rw [acquireAttemptWithToken, immediate_of_drop hbody]
    refine .unchanged fun hnone => ⟨fun heq => ?_, fun token heq => ?_⟩
    · exact acquireAttemptTx_drop_free hbody hnone (Except.ok.inj heq)
    · exact acquireAttemptTx_drop hbody token (Except.ok.inj heq)
  | commit =>
    have hframe := fun k (hk : k ≠ holder) =>
      (ledger.acquireAttemptWithToken_moves holder lane state generation pid staged uuid
        now).permits k fun heq => hk (some.inj heq)
    rw [acquireAttemptWithToken, immediate_of_commit hbody] at hframe ⊢
    obtain ⟨-, ⟨_, hheld, rfl⟩ | ⟨hnone, _, _, _, -, hens, hopen, hadmitted⟩⟩ :=
      acquireAttemptTx_commit hbody
    · refine .unchanged fun hnone => ?_
      cases hnone.symm.trans hheld
    have hE := ensureDemandTx_ok hens
    rcases admitTx_commit hadmitted with ⟨hout, rfl⟩ | ⟨rfl, -, -, permits, hins, rfl⟩
    · refine ⟨hframe, fun k hk => ?_, fun _ => .inr ⟨?_, ?_, ?_⟩⟩
      · exact (queued_requeue hE hopen _ k).trans (if_neg hk)
      · rw [permits_requeue, hE.permits]
        exact hnone
      · rcases hout with rfl | rfl <;> nofun
      · rcases hout with rfl | rfl <;> nofun
    · have hread := Table.get?_of_insert? hins
      refine ⟨hframe, fun k hk => ?_, fun _ => .inl ⟨rfl, ?_, ?_⟩⟩
      · rw [queued_setDemand, if_neg hk]
        exact (queued_requeue hE hopen _ k).trans (if_neg hk)
      · exact (hread _).trans (if_pos rfl)
      · rw [queued_setDemand, queued_withPermits, queued_requeue hE hopen]
        simp [freshPermitRow]

variable (ledger holder state generation pid) in
theorem acquireScalesetAttemptWithToken_effect (token : Token) (now : UnixTime) :
    AcquireEffect ledger (freshPermitRow holder .scaleSet state generation pid token now)
      (ledger.acquireScalesetAttemptWithToken holder state generation pid token now).1
      (ledger.acquireScalesetAttemptWithToken holder state generation pid token now).2 := by
  rcases ledger.acquireScalesetAttemptWithToken_cases holder state generation pid token now with
    h | h <;> rw [h]
  · exact .unchanged fun _ => ⟨nofun, nofun⟩
  · exact ledger.acquireAttemptWithToken_effect holder .scaleSet state generation pid
      (some token) token now

end PermitLedger

end Velnor.Control
