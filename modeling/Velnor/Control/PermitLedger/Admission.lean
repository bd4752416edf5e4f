/-
  Host-wide oldest-first admission: exactly when a fresh acquire inserts a
  permit (`acquire_attempt_with_token`, permit_ledger.rs), said about the
  ledger before the call.

  The transaction creates, revives or refreshes the caller's own demand and
  then asks the changed table for its oldest fresh eligible row.
  `mem_freshEligible_requeue` reads that query back into the table before.
-/
import Velnor.Control.PermitLedger.Safety

namespace Velnor.Control

open Relational PermitLedger

namespace PermitLedger

/-! ## What an acquire is judged on -/

/-- The `updated_unix` a demand has to be past to be fresh. -/
def freshAfter (now : UnixTime) : Int := i64OfU64 (now.secs - demandStaleAfterSecs)

variable (ledger : PermitLedger) (holder : Holder)

/-- The caller's place in the order: its row's, or that of the row created now. -/
def ticketFor (now : UnixTime) : Lex (Int × Int) :=
  match ledger.demands.get? holder with
  | some row => row.ticket
  | none => toLex (i64OfU64 now.secs, ledger.nextSequence)

/-- The caller's demand is open and of its lane, or can be created. -/
def OpenFor (lane : PermitLane) : Prop :=
  match ledger.demands.get? holder with
  | some row => row.lane = lane ∧ row.state.closed = false
  | none => ledger.nextSequence ≤ i64Max

/-- No fresh eligible demand of either lane has an older ticket. -/
def Oldest (now : UnixTime) : Prop :=
  ∀ row ∈ ledger.freshEligible (freshAfter now), ledger.ticketFor holder now ≤ row.ticket

instance (ledger : PermitLedger) (holder : Holder) (now : UnixTime) :
    Decidable (ledger.Oldest holder now) :=
  inferInstanceAs (Decidable (∀ row ∈ _, _))

/-- Everything a fresh permit needs. -/
structure Admits (ledger : PermitLedger) (holder : Holder) (lane : PermitLane)
    (generation : Nat) (now : UnixTime) : Prop where
  current : ledger.generation = generation
  room : ∃ max, ledger.maxJobs = some max ∧ ledger.permits.size < max
  demand : ledger.OpenFor holder lane
  oldest : ledger.Oldest holder now

/-! ## The caller's own row -/

variable {holder} {db mid : PermitLedger} {lane : PermitLane} {scope : String} {now : UnixTime}
  {demand : PermitDemand}

/-- The row the transaction works on has the caller's ticket. -/
theorem ensureDemandTx_ticket {initialState : DemandState}
    (h : db.ensureDemandTx holder lane scope now.secs now.secs initialState = .ok (demand, mid)) :
    ∃ row, mid.demands.get? holder = some row ∧ row.state = demand.state
      ∧ row.ticket = db.ticketFor holder now := by
  cases hrow : db.demands.get? holder with
  | some row =>
    rw [ensureDemandTx_of_some hrow] at h
    split at h
    · cases Except.ok.inj h
      exact ⟨row, hrow, rfl, by rw [ticketFor, hrow]⟩
    · cases h
  | none =>
    obtain ⟨_, heq, hget⟩ := ensureDemandTx_of_none hrow
      (nextSequence_le_of_ensureDemandTx h hrow) lane scope now.secs now.secs initialState
    rw [heq] at h
    cases Except.ok.inj h
    refine ⟨_, (hget holder).trans (if_pos rfl), rfl, ?_⟩
    rw [ticketFor, hrow]
    rfl

/-- An open demand comes out of `ensure_demand_tx` exactly when there is one of
    the lane, or room for one. -/
theorem openFor_iff :
    db.OpenFor holder lane
      ↔ ∃ demand mid,
        db.ensureDemandTx holder lane scope now.secs now.secs .eligible = .ok (demand, mid)
          ∧ demand.state.closed = false := by
  cases hrow : db.demands.get? holder with
  | some row =>
    simp only [OpenFor, hrow, ensureDemandTx_of_some hrow]
    constructor
    · rintro ⟨hlane, hopen⟩
      exact ⟨row.toDemand, db, if_pos hlane, hopen⟩
    rintro ⟨_, _, hens, hopen⟩
    split at hens
    · rename_i hlane
      cases Except.ok.inj hens
      exact ⟨hlane, hopen⟩
    · cases hens
  | none =>
    simp only [OpenFor, hrow]
    constructor
    · intro hroom
      obtain ⟨_, heq, -⟩ := ensureDemandTx_of_none hrow hroom lane scope now.secs now.secs .eligible
      exact ⟨_, _, heq, rfl⟩
    · rintro ⟨_, _, hens, -⟩
      exact nextSequence_le_of_ensureDemandTx hens hrow

/-! ## The query -/

/-- A demand refreshed now is fresh, from the first second on. -/
theorem freshAfter_lt_iff : freshAfter now < i64OfU64 now.secs ↔ 1 ≤ now.secs := by
  have hfits := now.fits
  simp only [freshAfter, i64OfU64, i64Max, demandStaleAfterSecs]
  omega

section Query

variable {row : DemandRow}

section

variable (hrow : mid.demands.get? holder = some row) (hopen : row.state.closed = false)
  (hframe : ∀ k, k ≠ holder → mid.demands.get? k = db.demands.get? k)
include hrow hopen hframe

/-- The queried table: the caller's row, eligible and refreshed, beside the
    fresh eligible rows of the others. -/
theorem mem_freshEligible_requeue {r : DemandRow} :
    r ∈ (mid.requeue holder row.state (i64OfU64 now.secs)).freshEligible (freshAfter now)
      ↔ (r = { row with state := .eligible, updatedUnix := i64OfU64 now.secs } ∧ 1 ≤ now.secs)
        ∨ (r.holder ≠ holder ∧ r ∈ db.freshEligible (freshAfter now)) := by
  have hkey := Table.key_of_get? hrow
  rw [mem_freshEligible, mem_freshEligible, get?_requeue hrow hopen]
  by_cases hr : r.holder = holder
  · rw [if_pos hr, Option.some.injEq]
    constructor
    · rintro ⟨rfl, -, hfresh⟩
      exact .inl ⟨rfl, freshAfter_lt_iff.mp hfresh⟩
    · rintro (⟨rfl, hnow⟩ | ⟨hne, -⟩)
      · exact ⟨rfl, rfl, freshAfter_lt_iff.mpr hnow⟩
      · exact absurd hr hne
  · rw [if_neg hr, hframe _ hr]
    constructor
    · exact fun h => .inr ⟨hr, h⟩
    · rintro (⟨rfl, -⟩ | ⟨-, h⟩)
      · exact absurd hkey hr
      · exact h

/-- The query answers the caller exactly when it is the oldest, from the first
    second on. -/
theorem oldestEligible_requeue_iff (hticket : row.ticket = db.ticketFor holder now) :
    (mid.requeue holder row.state (i64OfU64 now.secs)).oldestEligible (freshAfter now)
        = some holder ↔ 1 ≤ now.secs ∧ db.Oldest holder now := by
  have hself := (get?_requeue hrow hopen (i64OfU64 now.secs) holder).trans (if_pos rfl)
  have hkey := Table.key_of_get? hrow
  rw [oldestEligible_eq_some_iff hself]
  simp only [mem_freshEligible_requeue hrow hopen hframe]
  constructor
  · rintro ⟨⟨-, hnow⟩ | ⟨hne, -⟩, hmin⟩
    · refine ⟨hnow, fun r hr => ?_⟩
      by_cases hk : r.holder = holder
      · -- its own row has its own ticket
        have hget := (mem_freshEligible.mp hr).1
        rw [hk] at hget
        rw [ticketFor, hget]
      · rw [← hticket]
        exact hmin r (.inr ⟨hk, hr⟩)
    · exact absurd hkey hne
  · rintro ⟨hnow, hmin⟩
    refine ⟨.inl ⟨trivial, hnow⟩, ?_⟩
    rintro r (⟨rfl, -⟩ | ⟨-, hr⟩)
    · -- against itself
      exact le_refl _
    · exact hticket.le.trans (hmin r hr)

end

end Query

/-- The same of the demand `ensure_demand_tx` returned. -/
theorem query_iff_oldest {initialState : DemandState}
    (hens : db.ensureDemandTx holder lane scope now.secs now.secs initialState = .ok (demand, mid))
    (hopen : demand.state.closed = false) :
    (mid.requeue holder demand.state (i64OfU64 now.secs)).oldestEligible (freshAfter now)
        = some holder ↔ 1 ≤ now.secs ∧ db.Oldest holder now := by
  obtain ⟨_, hrow, hstate, hticket⟩ := ensureDemandTx_ticket hens
  rw [← hstate] at hopen ⊢
  exact oldestEligible_requeue_iff hrow hopen (ensureDemandTx_ok hens).frame hticket

/-! ## Exactness -/

theorem admitTx_grant {row : PermitRow} {max : Nat} {permits : PermitTable}
    (hroom : db.permits.size < max) (hold : db.oldestEligible (freshAfter now) = some row.holder)
    (hins : db.permits.insert? row = some permits) :
    admitTx row max now db
      = .commit (.acquired row.attemptToken)
          ({ db with permits := permits }.setDemand row.holder .granted (i64OfU64 now.secs)) := by
  rw [freshAfter] at hold
  simp only [admitTx, if_neg (not_le.mpr hroom), hold, hins, ne_eq, not_true_eq_false, if_false]

/-- The judgement as the transaction makes it: the demand it ensured, and the
    query over the table it changed. -/
theorem admits_iff {ledger : PermitLedger} {generation : Nat} (hnow : 1 ≤ now.secs) :
    ledger.Admits holder lane generation now
      ↔ ledger.generation = generation
        ∧ ∃ max demand mid, ledger.maxJobs = some max ∧ ledger.permits.size < max
          ∧ ledger.ensureDemandTx holder lane "" now.secs now.secs .eligible = .ok (demand, mid)
          ∧ demand.state.closed = false
          ∧ (mid.requeue holder demand.state (i64OfU64 now.secs)).oldestEligible
              (freshAfter now) = some holder := by
  constructor
  · rintro ⟨hgen, ⟨max, hmax, hroom⟩, hdemand, hold⟩
    obtain ⟨demand, mid, hens, hopen⟩ := openFor_iff.mp hdemand
    exact ⟨hgen, max, demand, mid, hmax, hroom, hens, hopen,
      (query_iff_oldest hens hopen).mpr ⟨hnow, hold⟩⟩
  · rintro ⟨hgen, max, demand, mid, hmax, hroom, hens, hopen, hold⟩
    exact ⟨hgen, ⟨max, hmax, hroom⟩, openFor_iff.mpr ⟨demand, mid, hens, hopen⟩,
      ((query_iff_oldest hens hopen).mp hold).2⟩

/-- A fresh permit is inserted exactly when the ledger admits the caller. -/
theorem acquireAttemptWithToken_isSome_iff {ledger : PermitLedger}
    (hnone : ledger.permits.get? holder = none) (hnow : 1 ≤ now.secs) {staged : Option Token}
    {uuid : Token}
    (htoken : ∀ k row, ledger.permits.get? k = some row → row.attemptToken ≠ staged.getD uuid)
    (lane : PermitLane) (state : PermitState) (generation : Nat) (pid : Option Nat) :
    ((ledger.acquireAttemptWithToken holder lane state generation pid staged uuid
        now).2.permits.get? holder).isSome = true
      ↔ ledger.Admits holder lane generation now := by
  rw [admits_iff hnow]
  constructor
  · intro hsome
    -- a permit where there was none is a grant
    have heffect := ledger.acquireAttemptWithToken_effect holder lane state generation pid staged
      uuid now
    rcases heffect.free hnone with ⟨hout, -⟩ | ⟨hleft, -⟩
    · have hgrant := congrArg (fun out => (acquireEvent ledger holder out).isGrant) hout
      have hcounts : _ = true := hgrant.trans (by simp [acquireEvent, hnone, LedgerEvent.isGrant])
      obtain ⟨hgen, -, hrest⟩ := acquireAttemptWithToken_grant hcounts
      exact ⟨hgen, hrest⟩
    · cases (congrArg Option.isSome hleft).symm.trans hsome
  · rintro ⟨hgen, _, _, _, hmax, _, hens, hopen, hold⟩
    have hmid := (ensureDemandTx_ok hens).permits
    obtain ⟨permits, hins⟩ := Option.isSome_iff_exists.mp (Table.insert?_isSome_iff.mpr
      (show ledger.permits.get? (freshPermitRow holder lane state generation pid
          (staged.getD uuid) now).holder = none ∧ _ from ⟨hnone, htoken⟩))
    -- nothing stops the transaction before the query
    have hstate := DemandState.closed_eq_false_iff.mp hopen
    simp only [acquireAttemptWithToken, immediate, acquireAttemptTx, hgen, hnone, hmax, hens,
      if_neg hstate, ne_eq, not_true_eq_false, if_false]
    rw [admitTx_grant (by rwa [permits_requeue, hmid]) hold (by rwa [permits_requeue, hmid])]
    show (permits.get? holder).isSome = true
    rw [Table.get?_of_insert? hins]
    simp [freshPermitRow]

end PermitLedger

/-! ## Over a run -/

namespace LedgerOp

/-- Whom a fresh permit is asked for, and when. -/
def asksFor : LedgerOp → Option (Holder × UnixTime)
  | .acquireAttempt holder _ _ _ _ _ now => some (holder, now)
  | .acquireScalesetAttempt holder _ _ _ _ now => some (holder, now)
  | _ => none

theorem oldest_of_isGrant {ledger : PermitLedger} {op : LedgerOp}
    (h : (op.event ledger).isGrant = true) :
    ∃ holder now, op.asksFor = some (holder, now) ∧ ledger.Oldest holder now := by
  have hacquire := (of_isGrant h).1
  cases op with
  | acquireAttempt holder _ _ _ _ _ now =>
    obtain ⟨-, -, _, _, _, -, -, hens, hopen, hold⟩ := acquireAttemptWithToken_grant h
    exact ⟨holder, now, rfl, ((query_iff_oldest hens hopen).mp hold).2⟩
  | acquireScalesetAttempt holder state generation pid token now =>
    rw [event] at h
    rcases ledger.acquireScalesetAttemptWithToken_cases holder state generation pid token now
      with hstep | hstep <;> rw [hstep] at h
    · cases h
    · obtain ⟨-, -, _, _, _, -, -, hens, hopen, hold⟩ :=
        acquireAttemptWithToken_grant h
      exact ⟨holder, now, rfl, ((query_iff_oldest hens hopen).mp hold).2⟩
  | _ => cases hacquire

end LedgerOp

/-- An acquire for a holder without a permit inserts one exactly when the
    ledger admits it, provided its token is no other permit's; so no run grants
    a fresh permit past an older fresh eligible demand of either lane. -/
theorem oldest_first_admission :
    (∀ (ledger : PermitLedger) (holder : Holder) (lane : PermitLane) (state : PermitState)
        (generation : Nat) (pid : Option Nat) (staged : Option Token) (uuid : Token)
        (now : UnixTime),
      ledger.permits.get? holder = none → 1 ≤ now.secs →
      (∀ k row, ledger.permits.get? k = some row → row.attemptToken ≠ staged.getD uuid) →
      (((ledger.acquireAttemptWithToken holder lane state generation pid staged uuid
          now).2.permits.get? holder).isSome = true
        ↔ ledger.Admits holder lane generation now))
      ∧ ∀ (start : PermitLedger) (ops : List LedgerOp) (op : LedgerOp),
        (runLedger start ops).permits.size < (runLedger start (ops ++ [op])).permits.size →
        ∃ holder now, op.asksFor = some (holder, now)
          ∧ (runLedger start ops).Oldest holder now := by
  constructor
  · intro _ _ lane state generation pid _ _ _ hnone hnow htoken
    exact acquireAttemptWithToken_isSome_iff hnone hnow htoken lane state generation pid
  · intro start ops op hgrew
    have hrun : runLedger start (ops ++ [op]) = op.step (runLedger start ops) :=
      run_append LedgerOp.step start ops [op]
    rw [hrun] at hgrew
    exact LedgerOp.oldest_of_isGrant (LedgerOp.isGrant_of_size_lt hgrew).1

/-- Two demands queued: the older Scale Set one is admitted and the native one,
    though there is room, is not. -/
theorem oldest_first_admission_two_lanes :
    let ledger := runLedger .empty
      [.setMaxJobs 2, .observeDemand "native/1" .native "" 1000 1000,
        .observeDemand "scaleset/1/7" .scaleSet "" 990 1000]
    let now : UnixTime := ⟨1001, by decide⟩
    ledger.Admits "scaleset/1/7" .scaleSet 0 now ∧ ¬ ledger.Admits "native/1" .native 0 now := by
  intro ledger now
  have htoken : ∀ k row, ledger.permits.get? k = some row →
      row.attemptToken ≠ (none : Option Token).getD "t1" := by
    intro _ _ hrow
    cases hrow
  constructor
  · exact (oldest_first_admission.1 ledger "scaleset/1/7" .scaleSet .reserved 0 none none "t1" now
      rfl (by decide) htoken).mp (by decide)
  intro hadmits
  have hsome := (oldest_first_admission.1 ledger "native/1" .native .reserved 0 none none "t1"
    now rfl (by decide) htoken).mpr hadmits
  exact absurd hsome (by decide)

/-- A holder whose demand was recorded for the other lane: current, in room,
    open and oldest, and still no permit. -/
theorem other_lane_demand_refused :
    let ledger := runLedger .empty [.setMaxJobs 1, .observeDemand "job/1" .native "" 1000 1000]
    let now : UnixTime := ⟨1001, by decide⟩
    let out := ledger.acquireAttempt "job/1" .scaleSet .reserved 0 none "t1" now
    ledger.permits.get? "job/1" = none ∧ ledger.generation = 0 ∧ ledger.maxJobs = some 1
      ∧ ledger.permits.size < 1
      ∧ (ledger.demand "job/1").map PermitDemand.state = some .eligible
      ∧ ledger.Oldest "job/1" now ∧ out.2.permits.get? "job/1" = none := by
  decide

end Velnor.Control
