/-
  Slot occupancy in every state a journal can reach.  A run mixes the two
  ways an event is taken (`apply`, which discards a rejected outcome, and the
  reducer alone, which may leave a slot it had just added), the rewrite of
  the tables that drops finished outbox rows, and the fields that come from
  outside the event log.

  `sound_run` carries the custody book through a run; `Occupancy` is that
  book read back in the tables' own terms.
-/
import Velnor.Control.Journal.Refinement

namespace Velnor.Control.Journal

open Rows Custody Relational Bool List

/-! ## Runs -/

/-- `persist_state` writes no acknowledged or abandoned row back. -/
def FleetState.settle (state : FleetState) : FleetState :=
  { state with outbox := state.outbox.filter fun row => !(row.remoteAcked || row.abandoned) }

/-- One move of a journal. -/
inductive Move where
  /-- `Journal::apply`: a rejected outcome is discarded. -/
  | apply (now : UnixTime) (event : Event)
  /-- The reducer by itself. -/
  | reduce (now : UnixTime) (event : Event)
  /-- The tables are written and read back. -/
  | settle
  /-- The drain and admission markers, and the capacity verdict, of a load. -/
  | mark (drain admission : Option UInt64) (capacityInvalid : Bool)
  deriving DecidableEq

def FleetState.mark (state : FleetState) (drain admission : Option UInt64)
    (capacityInvalid : Bool) : FleetState :=
  { state with
    drainActive := drain.isSome
    drainVersion := drain.getD 0
    admissionBlocked := admission.isSome
    admissionVersion := admission.getD 0
    capacityInvalid := capacityInvalid }

def move (state : FleetState) : Move → FleetState
  | .apply now event =>
    let outcome := Journal.reduce now state event
    if outcome.rejected then state else outcome.state
  | .reduce now event => (Journal.reduce now state event).state
  | .settle => state.settle
  | .mark drain admission capacityInvalid => state.mark drain admission capacityInvalid

/-- The state a fresh journal is in after `moves`. -/
def stateAfter (moves : List Move) : FleetState := run move FleetState.fresh moves

/-- The event a move has accepted, with its clock reading. -/
def accepted (state : FleetState) : Move → Option (UnixTime × Event)
  | .apply now event | .reduce now event =>
    if (Journal.reduce now state event).rejected then none else some (now, event)
  | .settle | .mark .. => none

/-- The slot a move names.  A rejected `apply` leaves no slot behind. -/
def moveOpening (state : FleetState) : Move → Label SlotId JobId
  | .apply now event =>
    if (Journal.reduce now state event).rejected then .quiet else event.opening
  | .reduce _ event => event.opening
  | .settle | .mark .. => .quiet

/-- What the book is told of a move. -/
def moveLabel (state : FleetState) (m : Move) : Label SlotId JobId :=
  (accepted state m).elim .quiet fun e => e.2.label

/-! ## Coherence of every reachable state -/

variable {job : JobRecord} {s : FleetState}

namespace FleetState

theorem isPending_kept {row : OutboxRecord} (h : row.isPending = true) :
    (!(row.remoteAcked || row.abandoned)) = true := by
  simp only [OutboxRecord.isPending, Bool.and_eq_true] at h
  rw [Bool.not_or, Bool.and_eq_true]
  exact ⟨h.1.2, h.2⟩

theorem Tidy.settle (ht : s.Tidy) : s.settle.Tidy :=
  { ht with outbox := distinct_filter ht.outbox _ }

/-- Dropping finished rows changes nothing that is owed. -/
theorem book_settle (ht : s.Tidy) : s.settle.book = s.book := by
  have hdebts : owed ∘ s.settle.row? = owed ∘ s.row? := by
    funext jobId
    change owed (lookup OutboxRecord.jobId (s.outbox.filter _) jobId) = owed (s.row? jobId)
    rw [lookup_filter ht.outbox]
    change owed ((s.row? jobId).filter _) = _
    cases s.row? jobId with
    | none => rfl
    | some row =>
      unfold owed
      rw [Option.filter_some]
      cases hp : row.isPending with
      | true => rw [isPending_kept hp]; rfl
      | false =>
        split
        · rfl
        · rw [Option.filter_some, hp]
          rfl
  exact congrArg (fun debts => (⟨_, _, debts⟩ : Book SlotId JobId Generation)) hdebts

end FleetState

open FleetState

theorem coherent_fresh : Coherent FleetState.fresh.book where
  seated := nofun
  single := nofun
  held := nofun
  owned := nofun

/-- One move, as steps of the book. -/
theorem move_refines (ht : s.Tidy) (hb : Coherent s.book) (m : Move) :
    (move s m).Tidy ∧ ∃ b, Step s.book (moveOpening s m) b
      ∧ Step b (moveLabel s m) (move s m).book := by
  cases m with
  | apply now event =>
    obtain ⟨htidy, b, hopen, hstep⟩ := reduce_refines ht hb now event
    dsimp only [move, moveOpening, moveLabel, accepted]
    cases hr : (reduce now s event).rejected with
    | true => exact ⟨ht, s.book, .idle _, .idle _⟩
    | false =>
      rw [hr] at hstep
      exact ⟨htidy, b, hopen, hstep⟩
  | reduce now event =>
    obtain ⟨htidy, b, hopen, hstep⟩ := reduce_refines ht hb now event
    refine ⟨htidy, b, hopen, ?_⟩
    dsimp only [move, moveLabel, accepted]
    cases hr : (reduce now s event).rejected with
    | true =>
      rw [hr] at hstep
      exact hstep
    | false =>
      rw [hr] at hstep
      exact hstep
  | settle => exact ⟨ht.settle, s.book, .idle _, book_settle ht ▸ .idle _⟩
  | mark =>
    exact ⟨ht.congr rfl rfl rfl, s.book, .idle _, .idle _⟩

/-- A state whose tables fit together. -/
structure Sound (s : FleetState) : Prop where
  tidy : s.Tidy
  coherent : Coherent s.book

theorem sound_move (m : Move) (h : Sound s) : Sound (move s m) := by
  obtain ⟨htidy, _, hopen, hstep⟩ := move_refines h.tidy h.coherent m
  exact ⟨htidy, hstep.coherent (hopen.coherent h.coherent)⟩

theorem sound_run (moves : List Move) : Sound (stateAfter moves) :=
  run_preserves (fun _ m h => sound_move m h)
    ⟨⟨distinct_nil, distinct_nil, distinct_nil⟩, coherent_fresh⟩ moves

/-- From every state that a journal can reach, a move adds to the custody book
    the slot it names, if that is new, and takes the step that its accepted
    event stands for, with the slot or the job of the event. -/
theorem journal_refines_custody (moves : List Move) (m : Move) :
    ∃ b, Step (stateAfter moves).book (moveOpening (stateAfter moves) m) b
      ∧ Step b (moveLabel (stateAfter moves) m) (stateAfter (moves ++ [m])).book := by
  have hsound := sound_run moves
  have hlast : stateAfter (moves ++ [m]) = move (stateAfter moves) m := foldl_concat ..
  rw [hlast]
  exact (move_refines hsound.tidy hsound.coherent m).2

/-! ## Occupancy -/

/-- The job rows that name a slot. -/
def FleetState.jobsOf (state : FleetState) (slotId : SlotId) : List JobRecord :=
  state.jobs.filter fun job => decide (job.slotId = slotId)

/-- The pending outbox rows of a job. -/
def FleetState.pendingOf (state : FleetState) (jobId : JobId) : List OutboxRecord :=
  state.outbox.filter fun row => decide (row.jobId = jobId) && row.isPending

/-- Who occupies what. -/
structure Occupancy (s : FleetState) : Prop where
  slots_distinct : (s.slots.map SlotRecord.slotId).Nodup
  jobs_distinct : (s.jobs.map JobRecord.jobId).Nodup
  job_seated : ∀ job ∈ s.jobs,
    ∃ slot ∈ s.slots, slot.slotId = job.slotId ∧ slot.generation = job.generation
  assigned_one : ∀ slot ∈ s.slots, slot.phase = .assigned → (s.jobsOf slot.slotId).length = 1
  fenced_le_one : ∀ slot ∈ s.slots, slot.phase = .fenced → (s.jobsOf slot.slotId).length ≤ 1
  other_none : ∀ slot ∈ s.slots, slot.phase ≠ .assigned → slot.phase ≠ .fenced →
    s.jobsOf slot.slotId = []
  pending_le_one : ∀ jobId, (s.pendingOf jobId).length ≤ 1
  pending_owned : ∀ row ∈ s.outbox, row.isPending = true →
    ∃ job ∈ s.jobs, job.jobId = row.jobId ∧ job.provisional = false
      ∧ job.slotId = row.slotId ∧ job.generation = row.generation
  /-- No row of unknown owner holds up another slot. -/
  blocks_own_slot : ∀ slotId generation,
    s.pendingOutboxBlocksAdmission slotId generation = true →
      ∃ row ∈ s.outbox, row.isPending = true ∧ row.slotId = slotId ∧ row.generation = generation

section Reading

variable (h : Sound s)
include h

theorem Sound.slot_of_mem {slot : SlotRecord} (hslot : slot ∈ s.slots) :
    s.book.slots slot.slotId = some slot.seat :=
  congrArg (Option.map SlotRecord.seat) (lookup_of_mem h.tidy.slots hslot)

theorem Sound.hold_of_mem (hjob : job ∈ s.jobs) : s.book.holds job.jobId = some job.hold :=
  congrArg (Option.map JobRecord.hold) (lookup_of_mem h.tidy.jobs hjob)

variable {row : OutboxRecord}

theorem Sound.debt_of_mem (hrow : row ∈ s.outbox) (hp : row.isPending = true) :
    s.book.debts row.jobId = some row.debt :=
  owed_eq_some.mpr ⟨row, lookup_of_mem h.tidy.outbox hrow, hp, rfl⟩

/-- The slot of a job row. -/
theorem Sound.seated (hjob : job ∈ s.jobs) :
    ∃ slot ∈ s.slots, slot.slotId = job.slotId ∧ slot.generation = job.generation
      ∧ slot.phase.standing ≠ .vacant := by
  obtain ⟨slot, hs, hgen, hst⟩ := slot_of_job h.coherent (lookup_of_mem h.tidy.jobs hjob)
  exact ⟨slot, mem_of_lookup hs, key_of_lookup hs, hgen, hst⟩

theorem Sound.jobsOf_le_one (slotId : SlotId) : (s.jobsOf slotId).length ≤ 1 := by
  refine length_filter_le_one h.tidy.jobs fun a ha b hb hsa hsb => ?_
  exact h.coherent.single _ _ _ _ (h.hold_of_mem ha) (h.hold_of_mem hb)
    ((of_decide_eq_true hsa).trans (of_decide_eq_true hsb).symm)

theorem Sound.owner_proven (hrow : row ∈ s.outbox) (hp : row.isPending = true) :
    ∃ job ∈ s.jobs, job.jobId = row.jobId ∧ job.provisional = false
      ∧ job.slotId = row.slotId ∧ job.generation = row.generation := by
  obtain ⟨_, hhold, hslot, hgen, hprov⟩ := h.coherent.owned _ _ (h.debt_of_mem hrow hp)
  obtain ⟨job, hj, rfl⟩ := Option.map_eq_some_iff.mp hhold
  exact ⟨job, mem_of_lookup hj, key_of_lookup hj, hprov, hslot, hgen⟩

theorem Sound.outboxOwnerIsProven (hrow : row ∈ s.outbox) (hp : row.isPending = true) :
    s.outboxOwnerIsProven row = true := by
  obtain ⟨job, hjob, hid, hprov, hslot, hgen⟩ := h.owner_proven hrow hp
  obtain ⟨slot, hmem, hsid, hsgen, -⟩ := h.seated hjob
  unfold FleetState.outboxOwnerIsProven
  rw [and_eq_true, any_eq_true, any_eq_true]
  refine ⟨⟨slot, hmem, ?_⟩, ⟨job, hjob, ?_⟩⟩
  · rw [and_eq_true, decide_eq_true_iff, decide_eq_true_iff]
    exact ⟨hsid.trans hslot, hsgen.trans hgen⟩
  · simp only [and_eq_true, decide_eq_true_iff, not_eq_true']
    exact ⟨⟨⟨hid, hslot⟩, hgen⟩, hprov⟩

end Reading

/-- In every state a journal reaches from empty, slots, jobs and outbox rows
    occupy each other as they should. -/
theorem occupancy_stateAfter (moves : List Move) : Occupancy (stateAfter moves) := by
  have h := sound_run moves
  refine ⟨h.tidy.slots, h.tidy.jobs, ?_, ?_, fun slot _ _ => h.jobsOf_le_one slot.slotId, ?_, ?_,
    fun row hrow hp => h.owner_proven hrow hp, ?_⟩
  · intro _ hjob
    obtain ⟨slot, hmem, hid, hgen, -⟩ := h.seated hjob
    exact ⟨slot, hmem, hid, hgen⟩
  · intro slot hslot hphase
    obtain ⟨_, _, hj, hat⟩ := h.coherent.held slot.slotId slot.generation (by
      rw [h.slot_of_mem hslot, SlotRecord.seat, hphase]
      rfl)
    obtain ⟨job, hjob, rfl⟩ := Option.map_eq_some_iff.mp hj
    have hmem : job ∈ (stateAfter moves).jobsOf slot.slotId :=
      mem_filter.mpr ⟨mem_of_lookup hjob, decide_eq_true hat⟩
    exact Nat.le_antisymm (h.jobsOf_le_one slot.slotId) (length_pos_of_mem hmem)
  · intro _ hslot hassigned hfenced
    refine filter_eq_nil_iff.mpr fun job hjob heq => ?_
    obtain ⟨slot', hmem, hid, -, hst⟩ := h.seated hjob
    obtain rfl := eq_of_key_eq h.tidy.slots hmem hslot (hid.trans (of_decide_eq_true heq))
    cases hphase : slot'.phase with
    | assigned => exact hassigned hphase
    | fenced => exact hfenced hphase
    | absent | provisioning | registered | ready => exact hst (by rw [hphase]; rfl)
  · intro _
    refine length_filter_le_one h.tidy.outbox fun a _ b _ hia hib => ?_
    rw [and_eq_true, decide_eq_true_iff] at hia hib
    exact hia.1.trans hib.1.symm
  · intro _ _ hblocks
    obtain ⟨row, hrow, hrest⟩ := any_eq_true.mp hblocks
    simp only [and_eq_true, or_eq_true, decide_eq_true_iff] at hrest
    obtain ⟨hp, ⟨hslot, hgen⟩ | hunproven⟩ := hrest
    · exact ⟨row, hrow, hp, hslot, hgen⟩
    · rw [h.outboxOwnerIsProven hrow hp] at hunproven
      cases hunproven

end Velnor.Control.Journal
