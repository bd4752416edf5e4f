/-
  The age of a waiter.  Every statement that writes `permit_demands` either
  adds a place behind all the others or leaves the places as they are
  (`Aged`), the ledger's own calls and the migration of the former native-only
  queue alike (permit_ledger.rs, `migrate_legacy_native_demand`), which every
  open of the ledger runs again.
-/
import Velnor.Control.PermitLedger.Ops

namespace Velnor.Control

open Relational PermitLedger Table List

/-! ## The former queue -/

/-- One `native_demand` row, its state as the text found there. -/
structure LegacyDemand where
  requestId : String
  scope : String
  firstSeenUnix : Int
  sequence : Int
  state : String
  updatedUnix : Int
  deriving DecidableEq, Repr

namespace LegacyDemand

/-- `ORDER BY first_seen_unix, sequence, request_id`. -/
def rank (legacy : LegacyDemand) : Int ×ₗ Int ×ₗ String :=
  toLex (legacy.firstSeenUnix, toLex (legacy.sequence, legacy.requestId))

def holder (legacy : LegacyDemand) : Holder := "native/" ++ legacy.requestId

/-- The row it becomes: the time survives, the sequence is the shared queue's. -/
def toRow (legacy : LegacyDemand) (sequence : Int) (state : DemandState) : DemandRow where
  holder := legacy.holder
  lane := .native
  scope := legacy.scope
  firstSeenUnix := legacy.firstSeenUnix
  sequence := sequence
  state := state
  updatedUnix := legacy.updatedUnix

end LegacyDemand

/-- Working state of the migration: the database and the next sequence. -/
structure Migrating where
  db : PermitLedger
  nextSequence : Int

/-- The loop body. -/
def Migrating.take (st : Migrating) (legacy : LegacyDemand) : Except LedgerError Migrating :=
  match DemandState.parse legacy.state with
  | none => .error (.unknownDemandState legacy.state)
  | some state =>
    if (st.db.demands.get? legacy.holder).isSome then .ok st
    else
      match st.db.demands.insert? (legacy.toRow st.nextSequence state) with
      | none => .error .storage
      -- `saturating_add`
      | some demands => .ok ⟨{ st.db with demands }, min (st.nextSequence + 1) i64Max⟩

namespace PermitLedger

/-- The transaction of `migrate_legacy_native_demand`, over the rows it found. -/
def migrateLegacyNativeDemandTx (legacy : List LegacyDemand) (db : PermitLedger) :
    TxEnd PermitLedger LedgerError Unit :=
  if i64Max < db.nextSequence then .fail .storage
  else
    match (legacy.insertionSort fun a b => a.rank ≤ b.rank).foldlM Migrating.take
        ⟨db, db.nextSequence⟩ with
    | .error error => .fail error
    | .ok st => .commit () st.db

/-- Without the old table, which the first migration drops, nothing is done. -/
def migrateLegacyNativeDemand (ledger : PermitLedger) :
    Option (List LegacyDemand) → Except LedgerError Unit × PermitLedger
  | none => (.ok (), ledger)
  | some legacy => immediate ledger (migrateLegacyNativeDemandTx legacy)

end PermitLedger

/-- No place is behind the next one to be given out; at the last sequence one
    may have it already. -/
structure Migrating.Ahead (st : Migrating) : Prop where
  fits : st.nextSequence ≤ i64Max
  le : ∀ row ∈ st.db.demands.rows, row.sequence ≤ st.nextSequence

theorem Migrating.aged_take {st st' : Migrating} {legacy : LegacyDemand} (h : st.Ahead)
    (htake : st.take legacy = .ok st') : Aged st.db st'.db ∧ st'.Ahead := by
  unfold take at htake
  repeat' split at htake
  all_goals cases htake
  · exact ⟨.of_places rfl, h⟩
  rename_i demands hins
  -- a sequence given out twice is refused by the `UNIQUE` column
  have hlt : ∀ row ∈ st.db.demands.rows, row.sequence < st.nextSequence := by
    intro row hrow
    have hne := (insert?_isSome_iff.mp (Option.isSome_iff_exists.mpr ⟨_, hins⟩)).2
      row.holder row (get?_of_mem hrow)
    exact lt_of_le_of_ne (h.le row hrow) hne
  have hfits := h.fits
  refine ⟨.of_insert? hins hlt, by simp, fun row hrow => ?_⟩
  simp only [rows_of_insert? hins, mem_append, mem_singleton] at hrow
  rcases hrow with hrow | rfl
  · have := hlt row hrow
    dsimp only
    omega
  · dsimp only [LegacyDemand.toRow]
    omega

variable (ledger : PermitLedger)

theorem PermitLedger.aged_migrateLegacyNativeDemand (legacy : Option (List LegacyDemand)) :
    Aged ledger (ledger.migrateLegacyNativeDemand legacy).2 := by
  cases legacy with
  | none => exact .of_places rfl
  | some =>
    refine immediate_of_commits (P := Aged ledger) (.of_places rfl) fun _ db' hbody => ?_
    unfold migrateLegacyNativeDemandTx at hbody
    repeat' split at hbody
    all_goals cases hbody
    rename_i hfits _ st hfold
    have hahead : Migrating.Ahead ⟨ledger, ledger.nextSequence⟩ :=
      ⟨not_lt.mp hfits, fun row hrow =>
        (sequence_lt_nextSequence (get?_of_mem hrow)).le⟩
    exact (foldlM_invariant (P := fun _ st => Aged ledger st.db ∧ st.Ahead)
      (fun _ _ _ _ hst htake =>
        (Migrating.aged_take hst.2 htake).imp_left hst.1.trans) ⟨.of_places rfl, hahead⟩ hfold).1

/-! ## Runs of calls and reopenings -/

theorem LedgerOp.step_aged (op : LedgerOp) : Aged ledger (op.step ledger) := by
  cases op with
  | reconcile =>
    exact immediate_of_commits (P := Aged ledger) (.of_places rfl) fun _ _ hbody =>
      (reconcileTx_recorded hbody).toAged
  | beginEpoch | setMaxJobs => exact .of_places rfl
  | setMaxJobsIfUnset n =>
    rcases ledger.setMaxJobsIfUnset_cases n with hstep | hstep <;> rw [step, hstep]
    · exact .of_places rfl
    · exact .of_places rfl
  | _ => exact (step_moves ledger rfl).toAged

/-- A call of the ledger, or an open of it that found `legacy` in the place of
    the former queue. -/
inductive LedgerCall where
  | call (op : LedgerOp)
  | reopen (legacy : Option (List LegacyDemand))

def LedgerCall.step (ledger : PermitLedger) : LedgerCall → PermitLedger
  | .call op => op.step ledger
  | .reopen legacy => (ledger.migrateLegacyNativeDemand legacy).2

theorem aged_run (calls : List LedgerCall) : Aged ledger (run LedgerCall.step ledger calls) := by
  refine run_preserves (I := Aged ledger) (fun db call h => h.trans ?_) (.of_places rfl) calls
  cases call with
  | call op => exact op.step_aged db
  | reopen legacy => exact db.aged_migrateLegacyNativeDemand legacy

namespace PermitLedger

variable {ledger} {holder : Holder}

theorem place_mem {row : DemandRow} (h : ledger.demands.get? holder = some row) :
    row.place ∈ ledger.places :=
  mem_map_of_mem (mem_of_get? h)

theorem exists_of_place_mem {place : Place} (h : place ∈ ledger.places) :
    ∃ row, ledger.demands.get? place.holder = some row ∧ row.place = place := by
  obtain ⟨row, hrow, rfl⟩ := mem_map.mp h
  exact ⟨row, get?_of_mem hrow, rfl⟩

end PermitLedger

/-- Over any run of calls and reopenings a demand row stays, with its first-seen
    time, sequence, lane and scope; no two share a sequence; and one created
    later has the higher one. -/
theorem queue_age_immutable (before after : List LedgerCall) :
    let early := run LedgerCall.step .empty before
    let late := run LedgerCall.step .empty (before ++ after)
    (∀ holder row, early.demands.get? holder = some row →
        ∃ row', late.demands.get? holder = some row' ∧ row'.place = row.place)
      ∧ (∀ a b rowA rowB, late.demands.get? a = some rowA → late.demands.get? b = some rowB →
        rowA.sequence = rowB.sequence → a = b)
      ∧ ∀ a b rowA rowB, early.demands.get? a = some rowA → early.demands.get? b = none →
        late.demands.get? b = some rowB → rowA.sequence < rowB.sequence := by
  intro early late
  have hlate : late = run LedgerCall.step early after := run_append _ _ before after
  have haged : Aged early late := hlate ▸ aged_run early after
  have hseq : InSequence late.places := (aged_run .empty (before ++ after)).inSequence .nil
  obtain ⟨_, hadded⟩ := haged.places
  refine ⟨fun holder row hrow => ?_, fun a b rowA rowB => eq_of_uniq,
    fun a b rowA rowB hA hnone hB => ?_⟩
  · obtain ⟨row', hrow', hplace⟩ := exists_of_place_mem (haged.places.subset (place_mem hrow))
    exact ⟨row', key_of_get? hrow ▸ hrow', hplace⟩
  · -- the later row is none of the early places, so it was added behind them
    have hmem := place_mem hB
    rw [← hadded, mem_append] at hmem
    rw [← hadded] at hseq
    refine (pairwise_append.mp hseq).2.2 _ (place_mem hA) _ (hmem.resolve_left fun hearly => ?_)
    obtain ⟨row, hrow, -⟩ := exists_of_place_mem hearly
    have hkey : rowB.holder = b := key_of_get? hB
    have hrow' : early.demands.get? rowB.holder = some row := hrow
    rw [hkey, hnone] at hrow'
    cases hrow'

end Velnor.Control
