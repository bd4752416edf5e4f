/-
  What a load reads back of what a write left.

  `Stored db s` says that the tables hold `s`; a write leaves it
  (`stored_persistState`), and a load under it gives `s` without its finished
  outbox rows, exactly when every `u64` of a row fits a signed column.
-/
import Velnor.Control.Journal.Occupancy
import Velnor.Control.Journal.Store

namespace Velnor.Control.Journal

open Rows Relational List OutboxRow

/-! ## Tables of encoded rows -/

section Codec

variable {α ρ ε : Type} {encode : α → ρ} {decode : ρ → Except ε α} {Fits : α → Prop}

variable {l : List α}

theorem mapM_decode_map (hok : ∀ a, Fits a → decode (encode a) = .ok a) (h : ∀ a ∈ l, Fits a) :
    (l.map encode).mapM decode = .ok l := by
  induction l with
  | nil => rfl
  | cons a _ ih =>
    rw [map_cons, mapM_cons, hok a (h a mem_cons_self), ih fun b hb => h b (mem_cons_of_mem a hb)]
    rfl

/-- A column that the decoder copies. -/
theorem map_of_mapM_ok {β : Type} {column : ρ → β} {field : α → β}
    (hdecode : ∀ row a, decode row = .ok a → field a = column row) {rows : List ρ}
    (h : rows.mapM decode = .ok l) : l.map field = rows.map column := by
  induction rows generalizing l with
  | nil =>
    cases h
    rfl
  | cons row _ ih =>
    rw [mapM_cons] at h
    obtain ⟨a, ha, h⟩ := bind_ok h
    obtain ⟨_, hrest, h⟩ := bind_ok h
    cases h
    rw [map_cons, map_cons, hdecode row a ha, ih hrest]

theorem decode_of_mapM_ok {rows : List ρ} (h : rows.mapM decode = .ok l) {row : ρ}
    (hrow : row ∈ rows) : ∃ a, decode row = .ok a := by
  induction rows generalizing l with
  | nil => cases hrow
  | cons head _ ih =>
    rw [mapM_cons] at h
    obtain ⟨a, ha, h⟩ := bind_ok h
    obtain ⟨_, hrest, -⟩ := bind_ok h
    cases hrow with
    | head => exact ⟨a, ha⟩
    | tail _ hrow => exact ih hrest hrow

theorem forall_of_mapM_ok {P : α → Prop} (hdecode : ∀ row a, decode row = .ok a → P a)
    {rows : List ρ} {l : List α} (h : rows.mapM decode = .ok l) : ∀ a ∈ l, P a := by
  induction rows generalizing l with
  | nil =>
    cases h
    nofun
  | cons row _ ih =>
    rw [mapM_cons] at h
    obtain ⟨a, ha, h⟩ := bind_ok h
    obtain ⟨_, hrest, h⟩ := bind_ok h
    cases h
    exact forall_mem_cons.mpr ⟨hdecode row a ha, ih hrest⟩

end Codec

/-! ## Cells -/

theorem i64U64_toInt64 {value : UInt64} (h : 0 ≤ value.toInt64) (field : String) :
    i64U64 value.toInt64 field = .ok value := by
  rw [i64U64, if_pos h, UInt64.toUInt64_toInt64]

variable {word : UInt64} {value : Int64} {field : String}

theorem i64U64_eq_ok (h : i64U64 value field = .ok word) : 0 ≤ value ∧ word.toInt64 = value := by
  unfold i64U64 at h
  split at h
  case isTrue hpos =>
    cases h
    exact ⟨hpos, Int64.toInt64_toUInt64 value⟩
  case isFalse => cases h

theorem nonneg_of_i64U64 (h : i64U64 value field = .ok word) : 0 ≤ word.toInt64 :=
  (i64U64_eq_ok h).2 ▸ (i64U64_eq_ok h).1

/-! ## Rows -/

/-- No `u64` of the row turns negative in its signed column. -/
def SlotRecord.Fits (slot : SlotRecord) : Prop :=
  0 ≤ slot.generation.toInt64 ∧ 0 ≤ slot.heartbeatUnix.toInt64

@[inherit_doc SlotRecord.Fits]
def JobRecord.Fits (job : JobRecord) : Prop :=
  0 ≤ job.generation.toInt64 ∧ 0 ≤ job.acceptedUnix.toInt64 ∧ 0 ≤ job.probeDeadlineUnix.toInt64

@[inherit_doc SlotRecord.Fits]
def OutboxRecord.Fits (row : OutboxRecord) : Prop :=
  0 ≤ row.generation.toInt64 ∧ 0 ≤ row.createdUnix.toInt64 ∧ 0 ≤ row.deadlineUnix.toInt64

theorem SlotRecord.decode_toRow (slot : SlotRecord) (h : slot.Fits) :
    slot.toRow.decode = .ok slot := by
  unfold SlotRow.decode toRow
  rw [i64U64_toInt64 h.1, i64U64_toInt64 h.2]
  rfl

theorem JobRecord.decode_toRow (job : JobRecord) (h : job.Fits) : job.toRow.decode = .ok job := by
  unfold JobRow.decode toRow
  rw [i64U64_toInt64 h.1, i64U64_toInt64 h.2.1, i64U64_toInt64 h.2.2]
  rfl

theorem OutboxRecord.decode_toRow (row : OutboxRecord) (h : row.Fits) :
    row.toRow.decode = .ok row := by
  unfold decode toRow
  rw [i64U64_toInt64 h.1, i64U64_toInt64 h.2.1, i64U64_toInt64 h.2.2]
  rfl

/-- A row that decodes keeps its id, and its cells were in range. -/
theorem SlotRow.decoded (row : SlotRow) (slot : SlotRecord) (h : row.decode = .ok slot) :
    slot.slotId = row.slotId ∧ slot.Fits ∧ 0 ≤ row.generation ∧ 0 ≤ row.heartbeatUnix := by
  obtain ⟨_, hgen, h⟩ := bind_ok h
  obtain ⟨_, hbeat, h⟩ := bind_ok h
  cases h
  exact ⟨rfl, ⟨nonneg_of_i64U64 hgen, nonneg_of_i64U64 hbeat⟩, (i64U64_eq_ok hgen).1,
    (i64U64_eq_ok hbeat).1⟩

@[inherit_doc SlotRow.decoded]
theorem JobRow.decoded (row : JobRow) (job : JobRecord) (h : row.decode = .ok job) :
    job.jobId = row.jobId ∧ job.Fits
      ∧ 0 ≤ row.generation ∧ 0 ≤ row.acceptedUnix ∧ 0 ≤ row.probeDeadlineUnix := by
  obtain ⟨_, hgen, h⟩ := bind_ok h
  obtain ⟨_, haccepted, h⟩ := bind_ok h
  obtain ⟨_, hprobe, h⟩ := bind_ok h
  cases h
  exact ⟨rfl, ⟨nonneg_of_i64U64 hgen, nonneg_of_i64U64 haccepted, nonneg_of_i64U64 hprobe⟩,
    (i64U64_eq_ok hgen).1, (i64U64_eq_ok haccepted).1, (i64U64_eq_ok hprobe).1⟩

@[inherit_doc SlotRow.decoded]
theorem OutboxRow.decoded (row : OutboxRow) (record : OutboxRecord) (h : row.decode = .ok record) :
    record.jobId = row.jobId ∧ record.Fits
      ∧ 0 ≤ row.generation ∧ 0 ≤ row.createdUnix ∧ 0 ≤ row.deadlineUnix := by
  obtain ⟨_, hgen, h⟩ := bind_ok h
  obtain ⟨_, hcreated, h⟩ := bind_ok h
  obtain ⟨_, hdeadline, h⟩ := bind_ok h
  cases h
  exact ⟨rfl, ⟨nonneg_of_i64U64 hgen, nonneg_of_i64U64 hcreated, nonneg_of_i64U64 hdeadline⟩,
    (i64U64_eq_ok hgen).1, (i64U64_eq_ok hcreated).1, (i64U64_eq_ok hdeadline).1⟩

/-! ## The stored state -/

/-- The tables hold `s`. -/
structure Stored (db : Database) (s : FleetState) : Prop where
  slots : db.slots = s.slots.map SlotRecord.toRow
  jobs : db.jobs = s.jobs.map JobRecord.toRow
  outbox : db.outbox = s.settle.outbox.map OutboxRecord.toRow
  fields : db.metadata = s.metaRows

/-- Every row that is written back fits its columns. -/
structure FleetState.Fits (s : FleetState) : Prop where
  slots : ∀ slot ∈ s.slots, slot.Fits
  jobs : ∀ job ∈ s.jobs, job.Fits
  outbox : ∀ row ∈ s.settle.outbox, row.Fits

/-- The state a load gives for `s`. -/
def FleetState.reloaded (s : FleetState) : FleetState :=
  { s.metaRows with
    journalWritable := true
    capacityInvalid := s.capacityInvalid || s.stateCapacityInvalid
    slots := s.slots
    jobs := s.jobs
    outbox := s.settle.outbox }

section Load

variable {db : Database} {s : FleetState}

theorem Stored.load (h : Stored db s) (hfits : s.Fits) :
    loadMaterializedState db = .ok s.reloaded := by
  unfold loadMaterializedState
  rw [h.slots, h.jobs, h.outbox, h.fields, mapM_decode_map SlotRecord.decode_toRow hfits.slots,
    mapM_decode_map JobRecord.decode_toRow hfits.jobs,
    mapM_decode_map OutboxRecord.decode_toRow hfits.outbox]
  rfl

/-- A load goes through only if every row table does. -/
structure Loaded (db : Database) (s : FleetState) : Prop where
  slots : db.slots.mapM SlotRow.decode = .ok s.slots
  jobs : db.jobs.mapM JobRow.decode = .ok s.jobs
  outbox : db.outbox.mapM OutboxRow.decode = .ok s.outbox
  capacity : s.capacityInvalid = false → s.stateCapacityInvalid = false

theorem loaded_of_load (h : loadMaterializedState db = .ok s) : Loaded db s := by
  obtain ⟨_, hslots, h⟩ := bind_ok h
  obtain ⟨_, hjobs, h⟩ := bind_ok h
  obtain ⟨_, houtbox, h⟩ := bind_ok h
  cases h
  exact ⟨hslots, hjobs, houtbox, fun hcapacity => (Bool.or_eq_false_iff.mp hcapacity).2⟩

/-- A loaded state has no two rows of one id. -/
theorem Loaded.tidy (h : Loaded db s) : s.Tidy where
  slots := by
    unfold Distinct
    rw [map_of_mapM_ok (fun row slot hslot => (SlotRow.decoded row slot hslot).1) h.slots]
    exact db.slots_keyed
  jobs := by
    unfold Distinct
    rw [map_of_mapM_ok (fun row job hjob => (JobRow.decoded row job hjob).1) h.jobs]
    exact db.jobs_keyed
  outbox := by
    unfold Distinct
    rw [map_of_mapM_ok (fun row record h => (decoded row record h).1) h.outbox]
    exact db.outbox_keyed

theorem insertable_of_tidy (h : s.Tidy) : s.Insertable where
  slots := by
    unfold Distinct
    rw [map_map]
    exact h.slots
  jobs := by
    unfold Distinct
    rw [map_map]
    exact h.jobs
  outbox := by
    unfold Distinct
    rw [map_map]
    exact distinct_filter h.outbox _

end Load

/-! ## Cells in range -/

/-- No signed cell that stands for a `u64` is negative. -/
structure Database.InRange (db : Database) : Prop where
  slots : ∀ row ∈ db.slots, 0 ≤ row.generation ∧ 0 ≤ row.heartbeatUnix
  jobs : ∀ row ∈ db.jobs, 0 ≤ row.generation ∧ 0 ≤ row.acceptedUnix ∧ 0 ≤ row.probeDeadlineUnix
  outbox : ∀ row ∈ db.outbox, 0 ≤ row.generation ∧ 0 ≤ row.createdUnix ∧ 0 ≤ row.deadlineUnix

variable {db : Database} {s : FleetState}

theorem Stored.inRange_iff (h : Stored db s) : db.InRange ↔ s.Fits := by
  have hslots : (∀ row ∈ db.slots, 0 ≤ row.generation ∧ 0 ≤ row.heartbeatUnix)
      ↔ ∀ slot ∈ s.slots, slot.Fits := by
    rw [h.slots, forall_mem_map]
    simp only [SlotRecord.toRow, SlotRecord.Fits]
  have hjobs : (∀ row ∈ db.jobs,
      0 ≤ row.generation ∧ 0 ≤ row.acceptedUnix ∧ 0 ≤ row.probeDeadlineUnix)
      ↔ ∀ job ∈ s.jobs, job.Fits := by
    rw [h.jobs, forall_mem_map]
    simp only [JobRecord.toRow, JobRecord.Fits]
  have houtbox : (∀ row ∈ db.outbox,
      0 ≤ row.generation ∧ 0 ≤ row.createdUnix ∧ 0 ≤ row.deadlineUnix)
      ↔ ∀ row ∈ s.settle.outbox, row.Fits := by
    rw [h.outbox, forall_mem_map]
    simp only [OutboxRecord.toRow, OutboxRecord.Fits]
  exact ⟨fun hr => ⟨hslots.mp hr.slots, hjobs.mp hr.jobs, houtbox.mp hr.outbox⟩,
    fun hf => ⟨hslots.mpr hf.slots, hjobs.mpr hf.jobs, houtbox.mpr hf.outbox⟩⟩

/-- What a load has read was in range. -/
theorem Loaded.inRange {db : Database} {s : FleetState} (h : Loaded db s) : db.InRange where
  slots row hrow := by
    obtain ⟨slot, hslot⟩ := decode_of_mapM_ok h.slots hrow
    exact (SlotRow.decoded row slot hslot).2.2
  jobs row hrow := by
    obtain ⟨job, hjob⟩ := decode_of_mapM_ok h.jobs hrow
    exact (JobRow.decoded row job hjob).2.2
  outbox row hrow := by
    obtain ⟨record, hrecord⟩ := decode_of_mapM_ok h.outbox hrow
    exact (decoded row record hrecord).2.2

/-- What a load has read can be written again. -/
theorem Loaded.fits {db : Database} {s : FleetState} (h : Loaded db s) : s.Fits where
  slots := forall_of_mapM_ok (fun row slot hslot => (SlotRow.decoded row slot hslot).2.1) h.slots
  jobs := forall_of_mapM_ok (fun row job hjob => (JobRow.decoded row job hjob).2.1) h.jobs
  outbox row hrow :=
    forall_of_mapM_ok (fun row record h => (decoded row record h).2.1) h.outbox row
      (mem_of_mem_filter hrow)

/-! ## Writes -/

theorem stored_persistState {db' : Database} (h : persistState db s = .ok db') : Stored db' s := by
  unfold persistState at h
  split at h
  · cases h
    exact ⟨rfl, rfl, rfl, rfl⟩
  · cases h

/-- Leases and owner are not the tables' business. -/
theorem persistState_frame {db db' : Database} {s : FleetState}
    (h : persistState db s = .ok db') :
    db'.launches = db.launches ∧ db'.identity = db.identity := by
  unfold persistState at h
  split at h
  · cases h
    exact ⟨rfl, rfl⟩
  · cases h

/-- A fleet that has more slots than its declared capacity: one slot is ready,
    the other runs a job whose completion is owed, and an older completion was
    acknowledged.  A drain has ended. -/
def busyFleet : FleetState :=
  { FleetState.fresh with
    drainVersion := 3
    desiredReady := 1
    capacityDeclared := true
    slots := [
      ⟨"slot-1", 4, .ready, true, true, true, true, true, some 70, 1000⟩,
      ⟨"slot-2", 7, .assigned, true, true, true, true, true, some 71, 1010⟩]
    jobs := [⟨"job-9", "slot-2", 7, 1, "worker", .completing, 990, some "success", false, "plan",
      "url", 0, 0⟩]
    outbox := [
      ⟨"job-8", "slot-2", 6, "old", true, true, true, 900, 1, 0, false, false⟩,
      ⟨"job-9", "slot-2", 7, "new", true, false, false, 1005, 0, 0, false, false⟩] }

end Velnor.Control.Journal
