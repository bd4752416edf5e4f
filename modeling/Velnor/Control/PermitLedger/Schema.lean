/-
  The host-wide permit ledger database: its row types, its tables and the
  reads that every transaction starts from (permit_ledger.rs).

  Columns keep the source's types: `INTEGER` columns are `Int` and are read
  back through the same conversions (`max(0) as u64`, `u32::try_from`), token
  and holder columns are strings.  The lane and state columns hold the
  enumerations themselves; `parse_asStr` is what licenses that, since every
  writer stores `as_str` of a value.

  `holder` is the primary key of both tables.  `attempt_token` (by
  `idx_permits_attempt_token`) and `sequence` are `UNIQUE`.
-/
import Velnor.Relational.Table
import Velnor.Relational.Transaction

namespace Velnor.Control

open Relational List

/-! ## Integer conversions -/

/-- `i64::MAX`. -/
def i64Max : Int := 2 ^ 63 - 1

/-- `value.max(0) as u64`. -/
def u64OfI64 (value : Int) : Nat := value.toNat

/-- `i64::try_from(value).unwrap_or(i64::MAX)`. -/
def i64OfU64 (value : Nat) : Int := min (value : Int) i64Max

/-- `u32::try_from(value).ok()`. -/
def u32OfI64 (value : Int) : Option Nat :=
  if 0 ≤ value ∧ value < 2 ^ 32 then some value.toNat else none

theorem u32OfI64_toNat (value : UInt32) : u32OfI64 (value.toNat : Int) = some value.toNat := by
  have hlt : value.toNat < 4294967296 := value.toNat_lt
  unfold u32OfI64
  rw [if_pos (by omega), Int.toNat_natCast]

/-- Seconds since the epoch as `unix_now` reads them.  `SystemTime` counts
    seconds in an `i64`, so the reading always fits one, and `as i64` and
    `i64::try_from` both store the reading itself. -/
structure UnixTime where
  secs : Nat
  fits : secs < 2 ^ 63
  deriving DecidableEq

/-- The reading as an `INTEGER` column stores it. -/
def UnixTime.toI64 (now : UnixTime) : Int := now.secs

/-! ## Enumerations -/

/-- Ledger holder: one job request of one lane. -/
abbrev Holder := String

/-- Owner token of one attempt. -/
abbrev Token := String

/-- A local lane sharing the one host-wide `N`. -/
inductive PermitLane where
  | native
  | scaleSet
  deriving DecidableEq, Repr

def PermitLane.asStr : PermitLane → String
  | .native => "native"
  | .scaleSet => "scale-set"

def PermitLane.parse (value : String) : Option PermitLane :=
  if value = "native" then some .native
  else if value = "scale-set" then some .scaleSet
  else none

theorem PermitLane.parse_asStr (lane : PermitLane) : parse lane.asStr = some lane := by
  cases lane <;> decide

/-- Lifecycle of one durable demand. -/
inductive DemandState where
  | eligible
  | granted
  | terminal
  | cancelled
  | waiting
  deriving DecidableEq, Repr

def DemandState.asStr : DemandState → String
  | .eligible => "eligible"
  | .granted => "granted"
  | .terminal => "terminal"
  | .cancelled => "cancelled"
  | .waiting => "waiting"

def DemandState.parse (value : String) : Option DemandState :=
  if value = "eligible" then some .eligible
  else if value = "granted" then some .granted
  else if value = "terminal" then some .terminal
  else if value = "cancelled" then some .cancelled
  else if value = "waiting" then some .waiting
  else none

theorem DemandState.parse_asStr (state : DemandState) : parse state.asStr = some state := by
  cases state <;> decide

/-- Terminal and cancelled demand: it cannot block later work or be revived. -/
def DemandState.closed : DemandState → Bool
  | .terminal | .cancelled => true
  | .eligible | .granted | .waiting => false

theorem DemandState.closed_eq_false_iff {state : DemandState} :
    state.closed = false ↔ ¬ (state = .terminal ∨ state = .cancelled) := by
  cases state <;> decide

/-- Lifecycle state of one held permit.  Every state counts toward `N`. -/
inductive PermitState where
  | reserved
  | acquiring
  | provisioning
  | assignable
  | running
  | cleaning
  | uncertain
  deriving DecidableEq, Repr

def PermitState.asStr : PermitState → String
  | .reserved => "reserved"
  | .acquiring => "acquiring"
  | .provisioning => "provisioning"
  | .assignable => "assignable"
  | .running => "running"
  | .cleaning => "cleaning"
  | .uncertain => "uncertain"

def PermitState.parse (value : String) : Option PermitState :=
  if value = "reserved" then some .reserved
  else if value = "acquiring" then some .acquiring
  else if value = "provisioning" then some .provisioning
  else if value = "assignable" then some .assignable
  else if value = "running" then some .running
  else if value = "cleaning" then some .cleaning
  else if value = "uncertain" then some .uncertain
  else none

theorem PermitState.parse_asStr (state : PermitState) : parse state.asStr = some state := by
  cases state <;> decide

/-! ## Rows -/

/-- One `permits` row. -/
structure PermitRow where
  holder : Holder
  lane : PermitLane
  state : PermitState
  acquiredUnix : Int
  updatedUnix : Int
  generation : Int
  pid : Option Int
  attemptToken : Token
  recoveryClaimToken : Option Token
  recoveryPreviousPid : Option Int
  recoveryPreviousToken : Option Token
  deriving DecidableEq, Repr

/-- One `permit_demands` row. -/
structure DemandRow where
  holder : Holder
  lane : PermitLane
  scope : String
  firstSeenUnix : Int
  sequence : Int
  state : DemandState
  updatedUnix : Int
  deriving DecidableEq, Repr

/-- The demand record the API returns. -/
structure PermitDemand where
  holder : Holder
  lane : PermitLane
  scope : String
  firstSeenUnix : Nat
  sequence : Int
  state : DemandState
  updatedUnix : Nat
  deriving DecidableEq, Repr

/-- The row as `read_demand` returns it. -/
def DemandRow.toDemand (row : DemandRow) : PermitDemand where
  holder := row.holder
  lane := row.lane
  scope := row.scope
  firstSeenUnix := u64OfI64 row.firstSeenUnix
  sequence := row.sequence
  state := row.state
  updatedUnix := u64OfI64 row.updatedUnix

/-- The singleton `permit_meta` row. -/
structure PermitMeta where
  maxJobs : Option Int
  generation : Int
  reconciledGeneration : Int
  deriving DecidableEq, Repr

abbrev PermitTable := Table PermitRow PermitRow.holder PermitRow.attemptToken

abbrev DemandTable := Table DemandRow DemandRow.holder DemandRow.sequence

/-- The ledger database. -/
structure PermitLedger where
  permitMeta : PermitMeta
  permits : PermitTable
  demands : DemandTable
  /-- `permit_token_migrations`: tokens minted for rows of a pre-token ledger. -/
  tokenMigrations : Finset (Holder × Token)
  /-- The singleton `scaleset_recovery_claims` row: claim token and owner pid. -/
  recoveryClaim : Option (Token × Int)
  /-- `recorded_terminal_cleanup_releases`. -/
  cleanupReleases : Finset (Holder × Token)
  deriving DecidableEq

/-- Errors from ledger operations.  `storage` stands for every failed
    statement: a violated constraint, or a query that found no row. -/
inductive LedgerError where
  | storage
  | unknownDemandState (state : String)
  | unknownHolder (holder : Holder)
  | staleAttempt (what : String)
  | recoveryClaimed (pid : Nat)
  | demandLaneMismatch (holder : Holder) (expected seen : PermitLane)
  | staleGeneration (expected seen : Nat)
  deriving DecidableEq, Repr

namespace PermitLedger

/-- The ledger `open` creates. -/
def empty : PermitLedger where
  permitMeta := ⟨none, 0, -1⟩
  permits := Table.empty
  demands := Table.empty
  tokenMigrations := ∅
  recoveryClaim := none
  cleanupReleases := ∅

/-! ## Reads -/

/-- Configured host-wide `N`, when one was set. -/
def maxJobs (ledger : PermitLedger) : Option Nat := ledger.permitMeta.maxJobs.bind u32OfI64

variable {ledger : PermitLedger}

/-- `N` is a `u32`. -/
theorem maxJobs_le {max : Nat} (h : ledger.maxJobs = some max) : max ≤ 2 ^ 32 - 1 := by
  obtain ⟨_, -, hraw⟩ := Option.bind_eq_some_iff.mp h
  unfold u32OfI64 at hraw
  split at hraw
  · cases hraw
    omega
  · cases hraw

variable (ledger)

/-- Current generation.  Callers fence mutations on this value. -/
def generation : Nat := u64OfI64 ledger.permitMeta.generation

/-- Whether reconciliation ran in the current generation. -/
def reconciled : Bool := ledger.permitMeta.generation = ledger.permitMeta.reconciledGeneration

/-- Counted occupants across every lane and state. -/
def occupied : Nat := min ledger.permits.size (2 ^ 32 - 1)

/-- Free capacity (`N - occupied`), only after this epoch reconciled. -/
def advertisedFree : Option Nat :=
  if ledger.reconciled then
    match ledger.maxJobs with
    | none => none
    | some max => some (max - ledger.occupied)
  else none

/-- Whether `attemptToken` owns the holder's permit. -/
def isCurrentAttempt (holder : Holder) (attemptToken : Token) : Bool :=
  (ledger.permits.get? holder).any fun row => row.attemptToken = attemptToken

/-- Read one durable demand row. -/
def demand (holder : Holder) : Option PermitDemand :=
  (ledger.demands.get? holder).map DemandRow.toDemand

/-- `COALESCE(MAX(sequence), 0) + 1`. -/
def nextSequence : Int := (ledger.demands.rows.map DemandRow.sequence).max?.getD 0 + 1

variable {ledger} in
theorem sequence_lt_nextSequence {holder : Holder} {row : DemandRow}
    (h : ledger.demands.get? holder = some row) : row.sequence < ledger.nextSequence := by
  have hmem : row.sequence ∈ ledger.demands.rows.map DemandRow.sequence :=
    mem_map.mpr ⟨row, Table.mem_of_get? h, rfl⟩
  unfold nextSequence
  cases hmax : (ledger.demands.rows.map DemandRow.sequence).max? with
  | none =>
    rw [max?_eq_none_iff] at hmax
    rw [hmax] at hmem
    cases hmem
  | some =>
    have hle := (max?_eq_some_iff.mp hmax).2 row.sequence hmem
    simp only [Option.getD_some]
    omega

/-! ## Row updates shared by the transactions -/

variable (holder : Holder)

/-- `UPDATE permit_demands SET state = ?, updated_unix = ? WHERE holder = ? AND p(state)`. -/
def setDemandWhere (p : DemandState → Bool) (state : DemandState) (now : Int) : PermitLedger :=
  { ledger with
    demands := ledger.demands.updateWhere holder (fun row => p row.state)
      (fun row => { row with state := state, updatedUnix := now }) (fun _ => ⟨rfl, rfl⟩) }

/-- `UPDATE permit_demands SET state = ?, updated_unix = ? WHERE holder = ?`. -/
def setDemand (state : DemandState) (now : Int) : PermitLedger :=
  ledger.setDemandWhere holder (fun _ => true) state now

/-- `UPDATE permit_demands SET updated_unix = ? WHERE holder = ?`. -/
def touchDemand (now : Int) : PermitLedger :=
  { ledger with
    demands := ledger.demands.update holder
      (fun row => { row with updatedUnix := now }) (fun _ => ⟨rfl, rfl⟩) }

theorem get?_setDemand (state : DemandState) (now : Int) (k : Holder) :
    (ledger.setDemand holder state now).demands.get? k
      = if k = holder then
          (ledger.demands.get? holder).map fun row =>
            { row with state := state, updatedUnix := now }
        else ledger.demands.get? k := by
  simp [setDemand, setDemandWhere, Table.get?_updateWhere]

/-- `UPDATE permits SET f WHERE holder = ? AND attempt_token = ? AND p(state)`. -/
def updateOwned (attemptToken : Token) (p : PermitState → Bool) (f : PermitRow → PermitRow)
    (hf : ∀ row, (f row).holder = row.holder ∧ (f row).attemptToken = row.attemptToken) :
    PermitLedger :=
  { ledger with
    permits := ledger.permits.updateWhere holder
      (fun row => row.attemptToken = attemptToken ∧ p row.state) f hf }

/-- `DELETE FROM permits WHERE holder = ? AND attempt_token = ?`. -/
def deleteOwned (attemptToken : Token) : PermitLedger :=
  { ledger with
    permits := ledger.permits.deleteWhere holder fun row => row.attemptToken = attemptToken }

end PermitLedger

/-! ## Places in the queue -/

/-- The columns of a demand that no statement rewrites. -/
structure Place where
  holder : Holder
  lane : PermitLane
  scope : String
  firstSeenUnix : Int
  sequence : Int
  deriving DecidableEq, Repr

def DemandRow.place (row : DemandRow) : Place where
  holder := row.holder
  lane := row.lane
  scope := row.scope
  firstSeenUnix := row.firstSeenUnix
  sequence := row.sequence

/-- The places in the order of their creation. -/
def PermitLedger.places (ledger : PermitLedger) : List Place :=
  ledger.demands.rows.map DemandRow.place

/-- Each place has a higher sequence than those before it. -/
def InSequence (places : List Place) : Prop := places.Pairwise fun a b => a.sequence < b.sequence

/-- Places are only added, each behind all the others. -/
structure Aged (db db' : PermitLedger) : Prop where
  places : db.places <+: db'.places
  inSequence : InSequence db.places → InSequence db'.places

/-- What a transaction on one holder leaves alone besides: the metadata, and
    the permits of the others. -/
structure Touches (target : Option Holder) (db db' : PermitLedger) : Prop extends Aged db db' where
  permitMeta : db'.permitMeta = db.permitMeta
  permits : ∀ k, some k ≠ target → db'.permits.get? k = db.permits.get? k

section

variable {db db' db'' : PermitLedger} {target : Option Holder} {holder : Holder}

theorem Aged.of_places (h : db'.places = db.places) : Aged db db' :=
  ⟨h ▸ prefix_rfl, fun hs => h ▸ hs⟩

theorem Aged.trans (h : Aged db db') (h' : Aged db' db'') : Aged db db'' :=
  ⟨h.places.trans h'.places, fun hs => h'.inSequence (h.inSequence hs)⟩

theorem Aged.of_insert? {row : DemandRow} {demands : DemandTable}
    (h : db.demands.insert? row = some demands)
    (hseq : ∀ r ∈ db.demands.rows, r.sequence < row.sequence) : Aged db { db with demands } := by
  have hplaces : { db with demands }.places = db.places ++ [row.place] := by
    simp [PermitLedger.places, Table.rows_of_insert? h]
  refine ⟨hplaces ▸ prefix_append .., fun hs => ?_⟩
  rw [hplaces]
  refine pairwise_append.mpr ⟨hs, pairwise_singleton .., fun place hplace last hlast => ?_⟩
  obtain ⟨r, hr, rfl⟩ := mem_map.mp hplace
  obtain rfl := mem_singleton.mp hlast
  exact hseq r hr

namespace Touches

theorem refl (target : Option Holder) (db : PermitLedger) : Touches target db db :=
  ⟨.of_places rfl, rfl, fun _ _ => rfl⟩

theorem trans (h : Touches target db db') (h' : Touches target db' db'') : Touches target db db'' :=
  ⟨h.toAged.trans h'.toAged, h'.permitMeta.trans h.permitMeta,
    fun k hk => (h'.permits k hk).trans (h.permits k hk)⟩

/-- Only a table of markers was written, or none. -/
theorem of_tables (hmeta : db'.permitMeta = db.permitMeta) (hd : db'.demands = db.demands)
    (hp : db'.permits = db.permits) : Touches target db db' := by
  refine ⟨.of_places ?_, hmeta, fun _ _ => by rw [hp]⟩
  rw [PermitLedger.places, hd]
  rfl

theorem updateDemand (db : PermitLedger) (holder : Holder) (p : DemandRow → Bool)
    {f : DemandRow → DemandRow} (hf : ∀ row, (f row).holder = row.holder
      ∧ (f row).sequence = row.sequence) (hplace : ∀ row, (f row).place = row.place) :
    Touches target db { db with demands := db.demands.updateWhere holder p f hf } :=
  ⟨.of_places (Table.map_assign DemandRow.place holder p hplace _), rfl, fun _ _ => rfl⟩

theorem setDemandWhere (db : PermitLedger) (holder : Holder) (p : DemandState → Bool)
    (state : DemandState) (now : Int) : Touches target db (db.setDemandWhere holder p state now) :=
  updateDemand db holder _ _ fun _ => rfl

theorem touchDemand (db : PermitLedger) (holder : Holder) (now : Int) :
    Touches target db (db.touchDemand holder now) :=
  updateDemand db holder _ _ fun _ => rfl

theorem of_permits {permits : PermitTable}
    (h : ∀ k, k ≠ holder → permits.get? k = db.permits.get? k) :
    Touches (some holder) db { db with permits } :=
  ⟨.of_places rfl, rfl, fun k hk => h k fun heq => hk (congrArg some heq)⟩

theorem updateOwned (db : PermitLedger) (holder : Holder) (token : Token)
    (p : PermitState → Bool) (f : PermitRow → PermitRow)
    (hf : ∀ row, (f row).holder = row.holder ∧ (f row).attemptToken = row.attemptToken) :
    Touches (some holder) db (db.updateOwned holder token p f hf) :=
  of_permits fun k hk => by rw [Table.get?_updateWhere, if_neg hk]

theorem deleteOwned (db : PermitLedger) (holder : Holder) (token : Token) :
    Touches (some holder) db (db.deleteOwned holder token) :=
  of_permits fun k hk => by rw [Table.get?_deleteWhere, if_neg hk]

end Touches

end

end Velnor.Control
