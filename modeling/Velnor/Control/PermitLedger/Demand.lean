/-
  The demand side of the ledger (permit_ledger.rs): `ensure_demand_tx`, which
  every admission path goes through, and the three transactions that move a
  demand without touching a permit: observe, park and cancel.

  `Ensured` is the one fact other modules use about `ensureDemandTx`.
-/
import Velnor.Control.PermitLedger.Lifecycle

namespace Velnor.Control

open Relational PermitLedger Option

variable {k : Holder} (now : UnixTime) {target : Option Holder}

namespace PermitLedger

/-! ## Creating or finding the demand row -/

variable (db : PermitLedger) (holder : Holder) (lane : PermitLane) (scope : String)
  (firstSeenUnix updatedUnix : Nat) (initialState : DemandState)

/-- The row `ensure_demand_tx` inserts. -/
def freshDemandRow : DemandRow where
  holder := holder
  lane := lane
  scope := scope
  firstSeenUnix := i64OfU64 firstSeenUnix
  sequence := db.nextSequence
  state := initialState
  updatedUnix := i64OfU64 updatedUnix

/-- The record it returns: the times as given, not as the columns clamp them. -/
def freshDemand : PermitDemand where
  holder := holder
  lane := lane
  scope := scope
  firstSeenUnix := firstSeenUnix
  sequence := db.nextSequence
  state := initialState
  updatedUnix := updatedUnix

def checkDemandLane (holder : Holder) (demand : PermitDemand) (lane : PermitLane) :
    Except LedgerError Unit :=
  if demand.lane = lane then .ok () else .error (.demandLaneMismatch holder lane demand.lane)

variable {db holder lane scope firstSeenUnix} {db' : PermitLedger} {demand : PermitDemand}

theorem queued_of_checkDemandLane {ok : Unit} (h : db.demand holder = some demand)
    (hcheck : checkDemandLane holder demand lane = .ok ok) :
    db.queued holder = some ⟨lane, demand.state⟩ := by
  obtain ⟨_, hrow, rfl⟩ := map_eq_some_iff.mp h
  unfold checkDemandLane at hcheck
  split at hcheck
  · rename_i hlane
    rw [queued_of_get? hrow, ← hlane]
    rfl
  · cases hcheck

def ensureDemandTx (db : PermitLedger) (holder : Holder) (lane : PermitLane) (scope : String)
    (firstSeenUnix updatedUnix : Nat) (initialState : DemandState) :
    Except LedgerError (PermitDemand × PermitLedger) :=
  match db.demand holder with
  | some demand =>
    match checkDemandLane holder demand lane with
    | .error error => .error error
    | .ok () => .ok (demand, db)
  | none =>
    -- past `i64::MAX` the sum is a `REAL`, which does not read back as `i64`
    if i64Max < db.nextSequence then .error .storage
    else
      match db.demands.insert?
          (db.freshDemandRow holder lane scope firstSeenUnix updatedUnix initialState) with
      | none => .error .storage
      | some demands =>
        .ok (db.freshDemand holder lane scope firstSeenUnix updatedUnix initialState,
          { db with demands := demands })

/-- The sequence is new and the key is free, so the insert goes through. -/
theorem insert?_freshDemandRow (h : db.demands.get? holder = none) (lane : PermitLane)
    (scope : String) (firstSeenUnix updatedUnix : Nat) (initialState : DemandState) :
    ∃ demands, db.demands.insert?
      (db.freshDemandRow holder lane scope firstSeenUnix updatedUnix initialState)
        = some demands := by
  refine isSome_iff_exists.mp (Table.insert?_isSome_iff.mpr ⟨h, ?_⟩)
  -- `sequence` is one past the largest
  intro _ _ hrow heq
  have hlt := sequence_lt_nextSequence hrow
  simp only [freshDemandRow] at heq
  omega

/-- What a successful `ensureDemandTx` leaves: the holder has a demand of this
    lane, which was there before or was created in the initial state. -/
structure Ensured (db : PermitLedger) (holder : Holder) (lane : PermitLane)
    (initialState : DemandState) (demand : PermitDemand) (db' : PermitLedger) : Prop where
  rest : db' = { db with demands := db'.demands }
  frame : ∀ h, h ≠ holder → db'.demands.get? h = db.demands.get? h
  after : db'.queued holder = some ⟨lane, demand.state⟩
  before : db' = db ∨ (db.demands.get? holder = none ∧ demand.state = initialState)

theorem ensureDemandTx_of_some {row : DemandRow} (h : db.demands.get? holder = some row)
    (lane : PermitLane) (scope : String) (firstSeenUnix updatedUnix : Nat)
    (initialState : DemandState) :
    db.ensureDemandTx holder lane scope firstSeenUnix updatedUnix initialState
      = if row.lane = lane then .ok (row.toDemand, db)
        else .error (.demandLaneMismatch holder lane row.lane) := by
  simp only [ensureDemandTx, demand, h, map_some, checkDemandLane, DemandRow.toDemand]
  by_cases hl : row.lane = lane
  · rw [if_pos hl, if_pos hl]
  · rw [if_neg hl, if_neg hl]

theorem ensureDemandTx_of_none (h : db.demands.get? holder = none)
    (hroom : db.nextSequence ≤ i64Max) (lane : PermitLane) (scope : String)
    (firstSeenUnix updatedUnix : Nat) (initialState : DemandState) :
    ∃ demands,
      db.ensureDemandTx holder lane scope firstSeenUnix updatedUnix initialState
        = .ok (db.freshDemand holder lane scope firstSeenUnix updatedUnix initialState,
            { db with demands := demands })
      ∧ ∀ k, demands.get? k = if k = holder then
          some (db.freshDemandRow holder lane scope firstSeenUnix updatedUnix initialState)
        else db.demands.get? k := by
  obtain ⟨demands, hins⟩ :=
    insert?_freshDemandRow h lane scope firstSeenUnix updatedUnix initialState
  refine ⟨demands, ?_, Table.get?_of_insert? hins⟩
  simp only [ensureDemandTx, demand, h, map_none, hins, if_neg (not_lt.mpr hroom)]

section

variable {updatedUnix initialState}
  (h : db.ensureDemandTx holder lane scope firstSeenUnix updatedUnix initialState
    = .ok (demand, db'))
include h

/-- A row is only created while its sequence still fits. -/
theorem nextSequence_le_of_ensureDemandTx (hrow : db.demands.get? holder = none) :
    db.nextSequence ≤ i64Max := by
  by_contra hover
  simp only [ensureDemandTx, PermitLedger.demand, hrow, map_none, if_pos (not_le.mp hover)] at h
  cases h

theorem ensureDemandTx_ok : Ensured db holder lane initialState demand db' := by
  cases hrow : db.demands.get? holder with
  | some =>
    rw [ensureDemandTx_of_some hrow] at h
    split at h
    · rename_i hl
      cases Except.ok.inj h
      refine ⟨rfl, fun _ _ => rfl, ?_, .inl rfl⟩
      rw [queued_of_get? hrow, hl]
      rfl
    · cases h
  | none =>
    obtain ⟨_, heq, hget⟩ := ensureDemandTx_of_none hrow
      (nextSequence_le_of_ensureDemandTx h hrow) lane scope firstSeenUnix updatedUnix initialState
    rw [heq] at h
    cases Except.ok.inj h
    refine ⟨rfl, fun k hk => ?_, ?_, .inr ⟨hrow, rfl⟩⟩
    · rw [hget, if_neg hk]
    have hself := hget holder
    rw [if_pos rfl] at hself
    rw [queued_of_get? hself]
    rfl

/-- A new demand stands behind all the others. -/
theorem touches_ensureDemandTx : Touches target db db' := by
  unfold ensureDemandTx at h
  repeat' split at h
  all_goals cases h
  · exact .refl target db
  · rename_i hins
    refine ⟨.of_insert? hins fun row hrow => ?_, rfl, fun _ _ => rfl⟩
    exact sequence_lt_nextSequence (Table.get?_of_mem hrow)

end

namespace Ensured

variable {initialState}

section

variable (h : Ensured db holder lane initialState demand db')
include h

theorem permits : db'.permits = db.permits := by
  rw [h.rest]

theorem holding (k : Holder) : db'.holding k = db.holding k := by
  rw [PermitLedger.holding, PermitLedger.holding, h.permits]

theorem queued_ne (hk : k ≠ holder) : db'.queued k = db.queued k := by
  rw [queued, queued, h.frame k hk]

/-- The demand before: absent, or the one now there. -/
theorem queued_before :
    db.queued holder = some ⟨lane, demand.state⟩
      ∨ (db.queued holder = none ∧ demand.state = initialState) := by
  rcases h.before with hsame | ⟨hnone, hstate⟩
  · left
    rw [← hsame]
    exact h.after
  · right
    exact ⟨map_eq_none_iff.mpr hnone, hstate⟩

end

end Ensured

/-- `ensure_demand_tx` for a holder that has a permit: created granted, and an
    eligible row promoted. -/
def ensureGrantedTx (db : PermitLedger) (holder : Holder) (lane : PermitLane) (now : Nat) :
    Except LedgerError PermitLedger :=
  match db.ensureDemandTx holder lane "" now now .granted with
  | .error error => .error error
  | .ok (demand, db) =>
    if demand.state = .eligible then .ok (db.setDemand holder .granted (i64OfU64 now))
    else .ok db

/-- What `ensureGrantedTx` makes of the demand. -/
inductive Recorded (lane : PermitLane) : Option Queued → Option Queued → Prop where
  | record : Recorded lane none (some ⟨lane, .granted⟩)
  | promote : Recorded lane (some ⟨lane, .eligible⟩) (some ⟨lane, .granted⟩)
  | keep {s : DemandState} (hs : s ≠ .eligible) : Recorded lane (some ⟨lane, s⟩) (some ⟨lane, s⟩)

theorem Recorded.settle {d d' : Option Queued} (h : Recorded lane d d') : Settle lane d d' := by
  cases h with
  | record => exact .record (.inl rfl)
  | promote => exact .promote lane
  | keep => exact .same _

theorem Recorded.trans {a b c : Option Queued} (h : Recorded lane a b) (h' : Recorded lane b c) :
    Recorded lane a c := by
  cases h with
  | record =>
    cases h' with
    | keep => exact .record
  | promote =>
    cases h' with
    | keep => exact .promote
  | keep => exact h'

structure EnsuredGranted (db : PermitLedger) (holder : Holder) (lane : PermitLane)
    (db' : PermitLedger) : Prop where
  rest : db' = { db with demands := db'.demands }
  frame : ∀ h, h ≠ holder → db'.demands.get? h = db.demands.get? h
  recorded : Recorded lane (db.queued holder) (db'.queued holder)

theorem ensureGrantedTx_ok {now : Nat} (h : db.ensureGrantedTx holder lane now = .ok db') :
    EnsuredGranted db holder lane db' := by
  unfold ensureGrantedTx at h
  split at h
  · cases h
  rename_i hens
  have hE := ensureDemandTx_ok hens
  split at h
  · rename_i heligible
    cases h
    refine ⟨by rw [hE.rest]; rfl, fun k hk => ?_, ?_⟩
    · rw [get?_setDemand, if_neg hk]
      exact hE.frame k hk
    rw [queued_setDemand, if_pos rfl, hE.after, heligible]
    -- eligible, so it was there before: a new row is created granted
    rcases hE.queued_before with hb | ⟨-, hstate⟩
    · rw [hb, heligible]
      exact .promote
    · rw [heligible] at hstate
      cases hstate
  · rename_i hother
    cases h
    refine ⟨hE.rest, hE.frame, ?_⟩
    rw [hE.after]
    rcases hE.queued_before with hb | ⟨hb, hstate⟩
    · rw [hb]
      exact .keep hother
    · rw [hb, hstate]
      exact .record

theorem touches_ensureGrantedTx {now : Nat} (h : db.ensureGrantedTx holder lane now = .ok db') :
    Touches target db db' := by
  unfold ensureGrantedTx at h
  repeat' split at h
  all_goals cases h
  · exact (touches_ensureDemandTx ‹_›).trans (.setDemandWhere ..)
  · exact touches_ensureDemandTx ‹_›

namespace EnsuredGranted

theorem permits (h : EnsuredGranted db holder lane db') : db'.permits = db.permits := by
  rw [h.rest]

theorem queued_ne (h : EnsuredGranted db holder lane db') (hk : k ≠ holder) :
    db'.queued k = db.queued k := by
  rw [queued, queued, h.frame k hk]

end EnsuredGranted

/-! ## Observe, park, cancel -/

/-- The body of `observe_demand`. -/
def observeDemandTx (holder : Holder) (lane : PermitLane) (scope : String)
    (firstSeenUnix observedUnix : Nat) (db : PermitLedger) :
    TxEnd PermitLedger LedgerError PermitDemand :=
  let heldLane := (db.permits.get? holder).map PermitRow.lane
  match heldLane.filter (· ≠ lane) with
  | some seen => .fail (.demandLaneMismatch holder lane seen)
  | none =>
    -- a holder with a permit is never put back in the queue
    let initialState := if heldLane.isSome then DemandState.granted else .eligible
    match db.ensureDemandTx holder lane scope firstSeenUnix observedUnix initialState with
    | .error error => .fail error
    | .ok (existing, db) =>
      let db :=
        -- redelivery revives a parked demand; a closed one is left alone
        if existing.state = .waiting then
          db.setDemand holder .eligible (i64OfU64 observedUnix)
        else if existing.state = .eligible ∨ existing.state = .granted then
          db.touchDemand holder (i64OfU64 observedUnix)
        else db
      match db.demand holder with
      | none => .fail (.unknownHolder holder)
      | some demand => .commit demand db

/-- Record that a lane currently observes eligible demand. -/
def observeDemand (ledger : PermitLedger) (holder : Holder) (lane : PermitLane) (scope : String)
    (firstSeenUnix observedUnix : Nat) : Except LedgerError PermitDemand × PermitLedger :=
  immediate ledger (observeDemandTx holder lane scope firstSeenUnix observedUnix)

/-- Park a departed waiter's demand; only an eligible row parks. -/
def parkDemand (ledger : PermitLedger) (holder : Holder) (now : UnixTime) :
    Except LedgerError Bool × PermitLedger :=
  immediate ledger fun db =>
    let changed := db.demands.changed holder fun row => row.state = .eligible
    .commit (0 < changed) (db.setDemandWhere holder (· = .eligible) .waiting now.toI64)

/-- Cancel a demand that holds no permit. -/
def cancelDemand (ledger : PermitLedger) (holder : Holder) (now : UnixTime) :
    Except LedgerError Bool × PermitLedger :=
  immediate ledger fun db =>
    let cancellable := fun state =>
      (state = DemandState.eligible ∨ state = .waiting) ∧ db.permits.get? holder = none
    let changed := db.demands.changed holder fun row => cancellable row.state
    .commit (0 < changed)
      (db.setDemandWhere holder (fun state => cancellable state) .cancelled now.toI64)

/-- What a committed observation did to the row it found or created. -/
theorem observeDemandTx_commit {observedUnix : Nat}
    (h : observeDemandTx holder lane scope firstSeenUnix observedUnix db = .commit demand db') :
    (∀ p, db.holding holder = some p → p.lane = lane)
      ∧ ∃ existing mid,
        Ensured db holder lane (if (db.holding holder).isSome then .granted else .eligible)
          existing mid
        ∧ Touches none db db'
        ∧ (∀ k, db'.holding k = mid.holding k)
        ∧ (∀ k, k ≠ holder → db'.queued k = mid.queued k)
        ∧ db'.queued holder
          = some ⟨lane, if existing.state = .waiting then .eligible else existing.state⟩ := by
  unfold observeDemandTx at h
  simp only at h
  split at h
  · cases h
  rename_i hlane
  split at h
  · cases h
  rename_i existing mid hens
  have hE := ensureDemandTx_ok hens
  split at h
  · cases h
  cases h
  refine ⟨?_, existing, mid, ?_, ?_, ?_, ?_, ?_⟩
  · intro _ hp
    obtain ⟨_, hrow, rfl⟩ := map_eq_some_iff.mp hp
    rw [hrow] at hlane
    simpa [Option.filter] using hlane
  · rw [holding_isSome]
    rw [isSome_map] at hE
    exact hE
  · refine (touches_ensureDemandTx hens).trans ?_
    split_ifs
    · exact .setDemandWhere ..
    · exact .touchDemand ..
    · exact .refl ..
  · intro _
    split_ifs <;> rfl
  · intro _ hk
    split_ifs <;> simp [hk]
  · split_ifs <;> simp [hE.after]

variable (ledger : PermitLedger) (holder : Holder)

theorem observeDemand_moves (lane : PermitLane) (scope : String)
    (firstSeenUnix observedUnix : Nat) :
    Moves none .internal ledger
      (ledger.observeDemand holder lane scope firstSeenUnix observedUnix).2 := by
  refine Moves.immediate_internal fun demand db' hbody => ?_
  obtain ⟨hlane, _, _, hE, htouches, hp, hframe, hafter⟩ := observeDemandTx_commit hbody
  refine ⟨htouches, Refines.on_demand holder (fun k => (hp k).trans (hE.holding k))
    (fun k hk => (hframe k hk).trans (hE.queued_ne hk)) ?_ ?_⟩
  · -- no permit: the demand enters the queue or comes back to it
    intro hnone
    rw [hafter]
    rcases hE.queued_before with hb | ⟨hb, hstate⟩
    · rw [hb]
      split_ifs with hw
      · rw [hw]
        exact .rejoin lane rfl
      · exact .same _
    · rw [hb, hstate, hnone]
      exact .enter lane
  · -- a permit: the demand is recorded as granted
    intro p hheld
    rw [hafter]
    rcases hE.queued_before with hb | ⟨hb, hstate⟩
    · rw [hb]
      split_ifs with hw
      · rw [hw]
        exact .revive lane
      · exact .same _
    · rw [hb, hstate, hheld, ← hlane p hheld]
      exact .record (.inl rfl)

theorem parkDemand_moves : Moves none .internal ledger (ledger.parkDemand holder now).2 := by
  refine ⟨immediate_of_commits (P := Touches none ledger) (.refl ..) fun _ _ hbody => ?_, ?_⟩
  · cases hbody
    exact .setDemandWhere ..
  have hmove : ∀ lane,
      Queue (ledger.queued holder) ((ledger.parkDemand holder now).2.queued holder)
        ∧ Settle lane (ledger.queued holder) ((ledger.parkDemand holder now).2.queued holder) := by
    intro _
    simp only [parkDemand, immediate, queued_setDemandWhere, if_true]
    rcases ledger.queued holder with _ | ⟨l, state⟩
    · exact ⟨.same none, .same none⟩
    · cases state with
      | eligible => exact ⟨.park l, .park l⟩
      | granted | terminal | cancelled | waiting => exact ⟨.same _, .same _⟩
  refine Refines.on_demand holder (fun _ => rfl) (fun k hk => ?_)
    (fun _ => (hmove .native).1) (fun p _ => (hmove p.lane).2)
  simp [parkDemand, immediate, hk]

theorem cancelDemand_moves : Moves none .internal ledger (ledger.cancelDemand holder now).2 := by
  refine ⟨immediate_of_commits (P := Touches none ledger) (.refl ..) fun _ _ hbody => ?_, ?_⟩
  · cases hbody
    exact .setDemandWhere ..
  refine Refines.on_demand holder (fun _ => rfl) (fun k hk => ?_) ?_ ?_
  · simp [cancelDemand, immediate, hk]
  · intro hnone
    have hfree := ledger.holding_eq_none_iff.mp hnone
    simp only [cancelDemand, immediate, queued_setDemandWhere, if_true, hfree]
    rcases ledger.queued holder with _ | ⟨lane, state⟩
    · exact .same none
    · by_cases hs : state = .eligible ∨ state = .waiting
      · simpa [hs] using Queue.close lane state rfl
      · simpa [hs] using Queue.same _
  · intro _ hheld
    -- a held permit makes the `WHERE` false
    have hrow : ledger.permits.get? holder ≠ none := by
      intro hfree
      rw [ledger.holding_eq_none_iff.mpr hfree] at hheld
      cases hheld
    simpa [cancelDemand, immediate, hrow] using Settle.same _

end PermitLedger

end Velnor.Control
