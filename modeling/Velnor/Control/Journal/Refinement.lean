/-
  The reducer's tables read as a custody book, and every event as a step of
  it: `reduce_refines`.  A slot event may first add its slot, so an event is
  one quiet step and then the step its label says.

  `Tidy` is what makes the reading exact: no table has two rows of one id.
-/
import Velnor.Control.Journal.Completions
import Velnor.Control.Journal.Custody

namespace Velnor.Control.Journal

open Rows Custody Option Function JobRecord SlotRecord FleetState

/-! ## The book of a state -/

def SlotPhase2.standing : SlotPhase2 → Standing
  | .assigned => .assigned
  | .fenced => .fenced
  | .absent | .provisioning | .registered | .ready => .vacant

def SlotRecord.seat (slot : SlotRecord) : Generation × Standing :=
  (slot.generation, slot.phase.standing)

def JobRecord.hold (job : JobRecord) : Hold SlotId Generation :=
  ⟨job.slotId, job.generation, job.provisional⟩

def OutboxRecord.debt (row : OutboxRecord) : Debt SlotId Generation :=
  ⟨row.slotId, row.generation, row.sendStarted⟩

/-- Only a pending row is owed. -/
def owed (row : Option OutboxRecord) : Option (Debt SlotId Generation) :=
  (row.filter OutboxRecord.isPending).map OutboxRecord.debt

namespace FleetState

def book (state : FleetState) : Book SlotId JobId Generation where
  slots := Option.map SlotRecord.seat ∘ state.slot?
  holds := Option.map JobRecord.hold ∘ state.job?
  debts := owed ∘ state.row?

/-- No table has two rows of one id. -/
structure Tidy (state : FleetState) : Prop where
  slots : Distinct SlotRecord.slotId state.slots
  jobs : Distinct JobRecord.jobId state.jobs
  outbox : Distinct OutboxRecord.jobId state.outbox

variable {s' : FleetState} {row : OutboxRecord}

theorem Tidy.congr {s : FleetState} (h : s.Tidy) (hslots : s'.slots = s.slots)
    (hjobs : s'.jobs = s.jobs) (houtbox : s'.outbox = s.outbox) : s'.Tidy :=
  ⟨hslots ▸ h.slots, hjobs ▸ h.jobs, houtbox ▸ h.outbox⟩

theorem owed_eq_some {row : Option OutboxRecord} {d : Debt SlotId Generation} :
    owed row = some d ↔ ∃ r, row = some r ∧ r.isPending = true ∧ r.debt = d := by
  unfold owed
  rw [map_eq_some_iff]
  constructor
  · rintro ⟨r, hr, rfl⟩
    exact ⟨r, (filter_eq_some_iff.mp hr).1, (filter_eq_some_iff.mp hr).2, rfl⟩
  · rintro ⟨r, rfl, hp, rfl⟩
    exact ⟨r, filter_eq_some_iff.mpr ⟨rfl, hp⟩, rfl⟩

theorem owed_of_pending (h : row.isPending = true) : owed (some row) = some row.debt :=
  owed_eq_some.mpr ⟨row, rfl, h, rfl⟩

theorem owed_of_not_pending (h : row.isPending = false) : owed (some row) = none := by
  unfold owed
  rw [filter_some, h]
  rfl

/-- A slot whose jobs are all elsewhere. -/
theorem free_of_not_active {s : FleetState} {slotId : SlotId}
    (h : s.slotHasActiveJob slotId = false) : s.book.Free slotId := by
  intro _ _ hj heq
  obtain ⟨job, hjob, rfl⟩ := map_eq_some_iff.mp hj
  have hnot := List.any_eq_false.mp h job (mem_of_lookup hjob)
  refine hnot ?_
  rw [job.phase.occupiesSlot_eq, Bool.and_true]
  exact decide_eq_true heq

/-! ## The primitive assignments -/

variable {s : FleetState} {slotId : SlotId} {jobId : JobId}

theorem slots_ensureSlot (s : FleetState) (slotId : SlotId) :
    (s.ensureSlot slotId).slot? = update s.slot? slotId (some (s.slotMut slotId)) := by
  unfold ensureSlot slotMut
  cases h : s.slot? slotId with
  | some slot => exact (update_eq_self_iff.mpr h.symm).symm
  | none => exact lookup_append h

theorem slot?_ensureSlot (s : FleetState) (slotId : SlotId) :
    (s.ensureSlot slotId).slot? slotId = some (s.slotMut slotId) := by
  rw [slots_ensureSlot, update_self]

theorem jobs_ensureSlot (s : FleetState) (slotId : SlotId) :
    (s.ensureSlot slotId).jobs = s.jobs := by
  unfold ensureSlot
  split <;> rfl

theorem outbox_ensureSlot (s : FleetState) (slotId : SlotId) :
    (s.ensureSlot slotId).outbox = s.outbox := by
  unfold ensureSlot
  split <;> rfl

theorem Tidy.ensureSlot (h : s.Tidy) (slotId : SlotId) : (s.ensureSlot slotId).Tidy := by
  refine ⟨?_, jobs_ensureSlot s slotId ▸ h.jobs, outbox_ensureSlot s slotId ▸ h.outbox⟩
  unfold FleetState.ensureSlot
  cases hs : s.slot? slotId with
  | some => exact h.slots
  | none => exact distinct_append h.slots hs

theorem step_ensureSlot (s : FleetState) (slotId : SlotId) :
    Step s.book (.add slotId) (s.ensureSlot slotId).book := by
  cases hs : s.slot? slotId with
  | some slot =>
    have hsame : s.ensureSlot slotId = s := by
      unfold ensureSlot
      rw [hs]
    rw [hsame]
    exact .known _ slotId slot.seat (congrArg (Option.map seat) hs)
  | none =>
    have hbook : (s.ensureSlot slotId).book
        = { s.book with
            slots := update s.book.slots slotId (some (new slotId).seat) } := by
      unfold ensureSlot
      rw [hs]
      simp only [book, slot?]
      rw [lookup_append (by exact hs), comp_update]
      rfl
    rw [hbook]
    exact .add _ slotId _ (congrArg (Option.map seat) hs)

theorem Tidy.setSlot (h : s.Tidy) {f : SlotRecord → SlotRecord}
    (hf : ∀ slot, (f slot).slotId = slot.slotId) : (s.setSlot slotId f).Tidy :=
  { h with slots := distinct_modifyFirst h.slots fun slot _ => hf slot }

section

variable (h : s.Tidy) {slot : SlotRecord} {f : SlotRecord → SlotRecord}
  (hs : s.slot? slotId = some slot) (hf : (f slot).slotId = slot.slotId)
include h hs hf

theorem slot?_setSlot : (s.setSlot slotId f).slot? = update s.slot? slotId (some (f slot)) := by
  refine (lookup_modifyFirst h.slots hs hf).trans ?_
  rw [key_of_lookup hs]
  rfl

theorem book_setSlot :
    (s.setSlot slotId f).book
      = { s.book with slots := update s.book.slots slotId (some (f slot).seat) } := by
  rw [book, slot?_setSlot h hs hf, comp_update]
  rfl

end

theorem Tidy.setJob (h : s.Tidy) {f : JobRecord → JobRecord}
    (hf : ∀ job, (f job).jobId = job.jobId) : (s.setJob jobId f).Tidy :=
  { h with jobs := distinct_modifyFirst h.jobs fun job _ => hf job }

variable {job : JobRecord} {commands : List SideEffect} {f : OutboxRecord → OutboxRecord}

/-- An assignment to a job row that keeps what the book shows of it. -/
theorem book_setJob (h : s.Tidy) {f : JobRecord → JobRecord} (hj : s.job? jobId = some job)
    (hf : (f job).jobId = job.jobId) (hhold : (f job).hold = job.hold) :
    (s.setJob jobId f).book = s.book := by
  simp only [book, job?, setJob]
  rw [lookup_modifyFirst h.jobs hj hf, comp_update, map_some, hhold, key_of_lookup hj]
  have hsame : (Option.map JobRecord.hold ∘ lookup JobRecord.jobId s.jobs) jobId = some job.hold :=
    congrArg (Option.map hold) hj
  rw [← hsame, update_eq_self]
  rfl

theorem Tidy.setRow (h : s.Tidy) (hf : ∀ row, (f row).jobId = row.jobId) :
    (s.setRow jobId f).Tidy :=
  { h with outbox := distinct_modifyFirst h.outbox fun row _ => hf row }

theorem book_setRow (h : s.Tidy) (hr : s.row? jobId = some row) (hf : (f row).jobId = row.jobId) :
    (s.setRow jobId f).book
      = { s.book with debts := update s.book.debts jobId (owed (some (f row))) } := by
  simp only [book, row?, setRow]
  rw [lookup_modifyFirst h.outbox hr hf, key_of_lookup hr, comp_update]
  rfl

/-- The search for a provisional row finds the row of its job id. -/
theorem find?_provisional (h : s.Tidy) (jobId : JobId) (generation : Generation) :
    s.jobs.find? (isProvisionalRow jobId generation) = some job
      ↔ s.job? jobId = some job ∧ job.generation = generation ∧ job.provisional = true := by
  have hfind :=
    find?_and h.jobs (fun job => decide (job.generation = generation) && job.provisional)
    jobId
  unfold isProvisionalRow
  rw [hfind, filter_eq_some_iff, Bool.and_eq_true, decide_eq_true_iff]
  rfl

/-! ## Refinement -/

/-- A step to a state is shown table by table. -/
theorem step_tables {b : Book SlotId JobId Generation} {l : Label SlotId JobId}
    {slots : SlotId → Option (Generation × Standing)}
    {holds : JobId → Option (Hold SlotId Generation)}
    {debts : JobId → Option (Debt SlotId Generation)} (hstep : Step b l ⟨slots, holds, debts⟩)
    (hslots : Option.map seat ∘ s'.slot? = slots) (hholds : Option.map hold ∘ s'.job? = holds)
    (hdebts : owed ∘ s'.row? = debts) : Step b l s'.book := by
  subst hslots hholds hdebts
  exact hstep

/-- An outcome is the opening step, that of naming a slot, and then the step
    of the label; a rejection stops at the opening. -/
structure Refines (s : FleetState) (opening l : Label SlotId JobId) (outcome : ReduceOutcome) :
    Prop where
  tidy : outcome.state.Tidy
  steps : ∃ b, Step s.book opening b
    ∧ Step b (if outcome.rejected then .quiet else l) outcome.state.book

variable {l : Label SlotId JobId}

theorem refines_reject (ht : s.Tidy) : Refines s .quiet l (.reject s) :=
  ⟨ht, s.book, .idle _, .idle _⟩

theorem refines_accept (ht : s'.Tidy) (hstep : Step s.book l s'.book) :
    Refines s .quiet l (.accept s' commands) :=
  ⟨ht, s.book, .idle _, hstep⟩

/-- A change of fields the book does not show. -/
theorem refines_fields (ht : s.Tidy) (hslots : s'.slots = s.slots) (hjobs : s'.jobs = s.jobs)
    (houtbox : s'.outbox = s.outbox) : Refines s .quiet .quiet (.accept s' commands) := by
  refine refines_accept (ht.congr hslots hjobs houtbox) ?_
  have hbook : s'.book = s.book := by
    unfold book slot? job? row?
    rw [hslots, hjobs, houtbox]
  rw [hbook]
  exact .idle _

theorem reserved_slotId (slot : SlotRecord) (generation : Generation) (routing : Bool) :
    (reserved slot generation routing).slotId = slot.slotId := by
  unfold reserved
  dsimp only
  split <;> split <;> rfl

/-- The guard the admission arms share. -/
theorem not_active_of_guard {generation : Generation} {p q r : Prop}
    (h : ¬ (p ∨ q ∨ s.slotAdmissionBlocked slotId generation = true ∨ r)) :
    s.slotHasActiveJob slotId = false := by
  simp only [not_or, slotAdmissionBlocked, Bool.or_eq_true] at h
  exact Bool.eq_false_iff.mpr h.2.2.1.1

section SlotEvents

variable (ht : s.Tidy)
include ht

theorem refines_reject_ensureSlot : Refines s (.add slotId) l (.reject (s.ensureSlot slotId)) :=
  ⟨ht.ensureSlot slotId, _, step_ensureSlot s slotId, .idle _⟩

variable {f : SlotRecord → SlotRecord}

section

variable (hf : ∀ slot, (f slot).slotId = slot.slotId)
include hf

theorem refines_setSlot
    (hstep : Step (s.ensureSlot slotId).book l
      { (s.ensureSlot slotId).book with
        slots := update (s.ensureSlot slotId).book.slots slotId
          (some (f (s.slotMut slotId)).seat) }) :
    Refines s (.add slotId) l (.accept ((s.ensureSlot slotId).setSlot slotId f) commands) := by
  refine ⟨(ht.ensureSlot slotId).setSlot hf, _, step_ensureSlot s slotId, ?_⟩
  dsimp only [ReduceOutcome.accept]
  rw [book_setSlot (ht.ensureSlot slotId) (slot?_ensureSlot s slotId) (hf _)]
  exact hstep

/-- An assignment that keeps the slot's generation and phase. -/
theorem refines_setSlot_keep (hseat : ∀ slot, (f slot).seat = slot.seat) :
    Refines s (.add slotId) .quiet (.accept ((s.ensureSlot slotId).setSlot slotId f) commands) := by
  refine refines_setSlot ht hf ?_
  have hsame : (s.ensureSlot slotId).book.slots slotId = some (s.slotMut slotId).seat :=
    congrArg (Option.map seat) (slot?_ensureSlot s slotId)
  rw [hseat, ← hsame, update_eq_self]
  exact .idle _

/-- An assignment to a slot nothing occupies, short of `Assigned`. -/
theorem refines_setSlot_free (hactive : s.slotHasActiveJob slotId = false)
    (hphase : (f (s.slotMut slotId)).phase.standing ≠ .assigned) :
    Refines s (.add slotId) (.seat slotId)
      (.accept ((s.ensureSlot slotId).setSlot slotId f) commands) := by
  refine refines_setSlot ht hf (.seat _ slotId _ _ hphase ?_)
  refine free_of_not_active ?_
  unfold slotHasActiveJob
  rw [jobs_ensureSlot]
  exact hactive

/-- A fence, with or without a job in the slot. -/
theorem refines_setSlot_fence (hl : l = .fence slotId ∨ l = .seat slotId)
    (hgen : ∀ slot, (f slot).generation = slot.generation)
    (hphase : ∀ slot, (f slot).phase = .fenced) :
    Refines s (.add slotId) l (.accept ((s.ensureSlot slotId).setSlot slotId f) commands) := by
  refine refines_setSlot ht hf ?_
  have hseat : (f (s.slotMut slotId)).seat = ((s.slotMut slotId).generation, .fenced) := by
    unfold seat
    rw [hgen, hphase]
    rfl
  rw [hseat]
  have hslot : (s.ensureSlot slotId).book.slots slotId = some (s.slotMut slotId).seat :=
    congrArg (Option.map seat) (slot?_ensureSlot s slotId)
  rcases hl with rfl | rfl
  · exact .fence _ slotId _ _ hslot
  · exact .retain _ slotId _ _ hslot

end

variable {generation : Generation}

theorem refines_permitReserved (hb : Coherent s.book) :
    Refines s (.add slotId) (.seat slotId) (s.permitReserved slotId generation) := by
  dsimp only [permitReserved]
  split
  case isTrue => exact refines_reject_ensureSlot ht
  case isFalse h =>
    simp only [not_or, slotAdmissionBlocked, Bool.or_eq_true] at h
    obtain ⟨_, ⟨hactive, -⟩, -, _⟩ := h
    have hactive : s.slotHasActiveJob slotId = false := Bool.eq_false_iff.mpr hactive
    refine refines_setSlot_free ht (fun slot => reserved_slotId slot _ _) hactive ?_
    -- The slot is not `Assigned` before: an assigned slot is occupied.
    have hfree : s.book.Free slotId := free_of_not_active hactive
    have hnot : (s.slotMut slotId).phase ≠ .assigned := by
      intro hphase
      unfold slotMut at hphase
      cases hs : s.slot? slotId with
      | none => rw [hs] at hphase; cases hphase
      | some slot =>
        rw [hs, getD_some] at hphase
        obtain ⟨j, hold, hj, hat⟩ := hb.held slotId slot.generation (by
          change Option.map seat (s.slot? slotId) = _
          rw [hs, map_some, seat, hphase]
          rfl)
        exact hfree j hold hj hat
    dsimp only [reserved]
    split
    · split <;> nofun
    split
    · nofun
    · cases hphase : (s.slotMut slotId).phase with
      | assigned => exact absurd hphase hnot
      | absent | provisioning | registered | ready | fenced => nofun

theorem refines_reportSlot (hf : ∀ slot, (f slot).slotId = slot.slotId)
    (hseat : ∀ slot, (f slot).seat = slot.seat) :
    Refines s (.add slotId) .quiet (s.reportSlot slotId generation f) := by
  dsimp only [reportSlot]
  split
  · exact refines_reject_ensureSlot ht
  · exact refines_setSlot_keep ht hf hseat

end SlotEvents

/-! ### Acquisitions -/

section JobEvents

variable (ht : s.Tidy)
include ht

theorem Tidy.dropJob (jobId : JobId) : (s.dropJob jobId).Tidy :=
  { ht with jobs := distinct_filter ht.jobs _ }

omit ht in
theorem book_dropJob (s : FleetState) (jobId : JobId) :
    (s.dropJob jobId).book = { s.book with holds := update s.book.holds jobId none } := by
  simp only [book, job?, dropJob]
  rw [lookup_filter_ne, comp_update]
  rfl

variable {slot : SlotRecord} {generation : Generation}

omit ht in
/-- A fence stays; otherwise the slot of a dropped job becomes vacant. -/
theorem restoreSlot_cases (hs : s.slot? job.slotId = some slot)
    (hgen : slot.generation = job.generation) :
    (slot.phase = .fenced ∧ (s.restoreSlot job).1 = s)
      ∨ (slot.phase ≠ .fenced ∧ ∃ phase : SlotPhase2, phase.standing = .vacant
        ∧ (phase = .ready → slot.readyProof = true ∧ slot.registered = true)
        ∧ (s.restoreSlot job).1
          = s.setSlot job.slotId fun slot => { slot with phase := phase }) := by
  unfold restoreSlot
  rw [hs]
  dsimp only
  rw [if_neg (not_not.mpr hgen)]
  by_cases hfenced : slot.phase = .fenced
  · rw [if_pos hfenced]
    exact .inl ⟨hfenced, rfl⟩
  rw [if_neg hfenced]
  refine .inr ⟨hfenced, ?_⟩
  split
  case isTrue hproof => exact ⟨.ready, rfl, fun _ => Bool.and_eq_true_iff.mp hproof, rfl⟩
  split
  · exact ⟨.registered, rfl, nofun, rfl⟩
  · exact ⟨.provisioning, rfl, nofun, rfl⟩

/-- What the slot of a dropped job becomes. -/
theorem restoreSlot_spec (hs : s.slot? job.slotId = some slot)
    (hgen : slot.generation = job.generation) :
    (s.restoreSlot job).1.Tidy
      ∧ (s.restoreSlot job).1.book
        = { s.book with
            slots := update s.book.slots job.slotId (some (vacated slot.seat)) } := by
  obtain ⟨hfenced, hstate⟩ | ⟨hfenced, phase, hphase, -, hstate⟩ := restoreSlot_cases hs hgen
  · have hseat : s.book.slots job.slotId = some slot.seat :=
      congrArg (Option.map seat) hs
    have hvacated : vacated slot.seat = slot.seat := by
      rw [seat, hfenced]
      rfl
    rw [hstate, hvacated, ← hseat, update_eq_self]
    exact ⟨ht, rfl⟩
  · have hvacated : vacated slot.seat = (slot.generation, phase.standing) := by
      rw [hphase, seat]
      cases hp : slot.phase with
      | fenced => exact absurd hp hfenced
      | absent | provisioning | registered | ready | assigned => rfl
    rw [hstate, book_setSlot ht hs rfl, hvacated]
    exact ⟨ht.setSlot fun _ => rfl, rfl⟩

/-- Dropping a job row, with its slot restored. -/
theorem restoreSlotAfterJobRemoval_spec (hj : s.job? jobId = some job)
    (hs : s.slot? job.slotId = some slot) (hgen : slot.generation = job.generation) :
    (s.restoreSlotAfterJobRemoval jobId).1.Tidy
      ∧ (s.restoreSlotAfterJobRemoval jobId).1.book
        = { s.book with
            slots := update s.book.slots job.slotId (some (vacated slot.seat))
            holds := update s.book.holds jobId none } := by
  obtain ⟨htidy, hbook⟩ := restoreSlot_spec (Tidy.dropJob ht jobId) hs hgen
  unfold restoreSlotAfterJobRemoval
  rw [hj]
  refine ⟨htidy, hbook.trans ?_⟩
  rw [book_dropJob]

variable (hb : Coherent s.book)
include hb

omit ht in
/-- The slot a job row names, in its generation. -/
theorem slot_of_job (hj : s.job? jobId = some job) :
    ∃ slot, s.slot? job.slotId = some slot ∧ slot.generation = job.generation
      ∧ slot.phase.standing ≠ .vacant := by
  obtain ⟨_, hslot, hst⟩ := hb.seated jobId job.hold (congrArg (Option.map hold) hj)
  obtain ⟨slot, hs, heq⟩ := map_eq_some_iff.mp hslot
  obtain ⟨hgen, rfl⟩ := Prod.mk.inj heq
  exact ⟨slot, hs, hgen, hst⟩

omit ht in
/-- The job row a debt is for. -/
theorem owned_of_debt {d : Debt SlotId Generation} (hj : s.job? jobId = some job)
    (hd : s.book.debts jobId = some d) :
    job.generation = d.generation ∧ job.provisional = false := by
  obtain ⟨_, hhold, -, hgen, hown⟩ := hb.owned jobId d hd
  cases (congrArg (Option.map hold) hj).symm.trans hhold
  exact ⟨hgen, hown⟩

variable {f : JobRecord → JobRecord}

/-- A job row goes for which nothing is owed. -/
theorem refines_release (hj : s.job? jobId = some job) (hnone : s.book.debts jobId = none) :
    Refines s .quiet (.release jobId)
      (.accept (s.restoreSlotAfterJobRemoval jobId).1 commands) := by
  obtain ⟨slot, hs, hgen, -⟩ := slot_of_job hb hj
  obtain ⟨htidy, hbook⟩ := restoreSlotAfterJobRemoval_spec ht hj hs hgen
  refine refines_accept htidy ?_
  rw [hbook]
  exact .release _ jobId job.hold slot.seat (congrArg (Option.map hold) hj) hnone
    (congrArg (Option.map seat) hs)

omit hb in
theorem refines_jobAcquisitionIntended {runServiceUrl : String} {intendedUnix : UInt64} :
    Refines s (.add slotId) (.occupy slotId jobId)
      (s.jobAcquisitionIntended slotId jobId generation runServiceUrl intendedUnix) := by
  dsimp only [jobAcquisitionIntended]
  split
  case isTrue => exact refines_reject_ensureSlot ht
  case isFalse h =>
    simp only [not_or, not_not, Bool.not_eq_true, isSome_eq_false_iff, isNone_iff_eq_none] at h
    obtain ⟨rfl, hready, -, hnew⟩ := h
    have hte := ht.ensureSlot slotId
    have hs := slot?_ensureSlot s slotId
    have hts : ((s.ensureSlot slotId).setSlot slotId
        fun slot => { slot with phase := .assigned }).Tidy := hte.setSlot fun _ => rfl
    refine ⟨{ hts with jobs := distinct_append hts.jobs hnew }, _, step_ensureSlot s slotId, ?_⟩
    have hseat : (s.ensureSlot slotId).book.slots slotId
        = some ((s.slotMut slotId).generation, .vacant) := by
      change Option.map seat _ = _
      rw [hs, map_some, seat, hready]
      rfl
    have hstep := Step.occupy (s.ensureSlot slotId).book slotId _ jobId hseat
      (congrArg (Option.map hold) hnew)
    refine step_tables hstep ?_ ?_ rfl
    · exact congrArg Book.slots (book_setSlot hte
        (f := fun slot => { slot with phase := .assigned }) hs rfl)
    change Option.map JobRecord.hold ∘ lookup JobRecord.jobId
      ((s.ensureSlot slotId).jobs ++ [_]) = _
    rw [lookup_append (by exact hnew), comp_update]
    rfl

omit hb in
theorem refines_retarget {provisionalJobId acquiredJobId : JobId}
    (hf : ∀ job, (f job).hold = job.hold) :
    Refines s .quiet (.retarget provisionalJobId acquiredJobId)
      (s.retarget provisionalJobId acquiredJobId generation f) := by
  dsimp only [retarget]
  cases hfound : s.jobs.find? (isProvisionalRow provisionalJobId generation) with
  | none => exact refines_reject ht
  | some job =>
    dsimp only
    split
    case isTrue => exact refines_reject ht
    case isFalse hfree =>
      obtain ⟨hj, -, hprov⟩ := (find?_provisional ht provisionalJobId generation).mp hfound
      have hkey : job.jobId = provisionalJobId := key_of_lookup hj
      have hfree : acquiredJobId = provisionalJobId ∨ s.job? acquiredJobId = none := by
        by_cases heq : acquiredJobId = provisionalJobId
        · exact .inl heq
        right
        rw [Bool.and_eq_true, decide_eq_true_iff, not_and, Bool.not_eq_true,
          isSome_eq_false_iff, isNone_iff_eq_none] at hfree
        exact hfree heq
      have hfresh : ∀ r ∈ s.jobs, r.jobId ≠ job.jobId → r.jobId ≠ acquiredJobId := by
        intro r hr hne
        rcases hfree with heq | hnone
        · rw [heq, ← hkey]
          exact hne
        · exact lookup_eq_none_iff.mp hnone r hr
      refine refines_accept { ht with jobs := distinct_rekey ht.jobs hfound hfresh } ?_
      have hstep := Step.retarget s.book provisionalJobId acquiredJobId job.hold
        (congrArg (Option.map hold) hj) hprov
        (hfree.imp id (congrArg (Option.map hold)))
      refine step_tables hstep rfl ?_ rfl
      change Option.map hold ∘ lookup jobId (modifyFirst _ _ s.jobs) = _
      rw [lookup_rekey ht.jobs hfound hfresh, comp_update, comp_update, hkey, ← hf job]
      rfl

omit hb in
theorem refines_acquisitionProbeFailed :
    Refines s .quiet .quiet (s.acquisitionProbeFailed jobId generation) := by
  dsimp only [acquisitionProbeFailed]
  cases hfound : s.jobs.find? (isProvisionalRow jobId generation) with
  | none => exact refines_reject ht
  | some job =>
    have hj := ((find?_provisional ht jobId generation).mp hfound).1
    refine refines_accept { ht with jobs := distinct_modifyFirst ht.jobs fun _ _ => rfl } ?_
    have hsame : s.book.holds job.jobId = some job.hold := by
      rw [key_of_lookup hj]
      exact congrArg (Option.map hold) hj
    refine step_tables (.idle s.book) rfl ?_ rfl
    change Option.map JobRecord.hold ∘ lookup JobRecord.jobId (modifyFirst _ _ s.jobs) = _
    rw [lookup_modifyFirst ht.jobs hfound rfl, comp_update]
    change update s.book.holds job.jobId (some job.hold) = _
    rw [← hsame, update_eq_self]
    rfl

theorem refines_jobAcquisitionLost :
    Refines s .quiet (.release jobId) (s.jobAcquisitionLost jobId generation) := by
  dsimp only [jobAcquisitionLost]
  split
  case isFalse => exact refines_reject ht
  case isTrue h =>
    obtain ⟨job, hfound⟩ := isSome_iff_exists.mp (List.find?_isSome.mpr (List.any_eq_true.mp h))
    obtain ⟨hj, -, hprov⟩ := (find?_provisional ht jobId generation).mp hfound
    refine refines_release ht hb hj ?_
    -- A provisional row owes nothing.
    cases hd : s.book.debts jobId with
    | none => rfl
    | some => exact absurd (hprov.symm.trans (owned_of_debt hb hj hd).2) nofun

/-! ### Jobs -/

theorem refines_jobOwned {attempt : UInt32} {worker : String} {acceptedUnix : UInt64} :
    Refines s .quiet (.own jobId)
      (s.jobOwned jobId slotId attempt generation worker acceptedUnix) := by
  dsimp only [jobOwned]
  split
  case isTrue => exact refines_reject ht
  case isFalse h =>
    simp only [not_or, not_not, Bool.not_eq_true] at h
    obtain ⟨-, hgen, hphase, hother⟩ := h
    have hphase := (Bool.not_eq_false' _).mp hphase
    obtain ⟨slot, hs, rfl⟩ := map_eq_some_iff.mp hgen
    have hseat : s.book.slots slotId = some slot.seat := congrArg (Option.map seat) hs
    -- The slot's one job row is the job's own.
    have hat : ∃ h, s.book.holds jobId = some h ∧ h.slot = slotId := by
      rw [hs, Bool.or_eq_true, Bool.and_eq_true, decide_eq_true_iff] at hphase
      rcases hphase with hphase | ⟨-, hrow⟩
      · have hassigned : slot.phase = .assigned := some.inj hphase
        obtain ⟨k, _, hk, hkat⟩ := hb.held slotId slot.generation (by
          rw [hseat, seat, hassigned]
          rfl)
        obtain ⟨job, hjob, rfl⟩ := map_eq_some_iff.mp hk
        have hnot := List.any_eq_false.mp hother job (mem_of_lookup hjob)
        have hsame : job.jobId = jobId := by
          by_contra hne
          refine hnot ?_
          rw [job.phase.occupiesSlot_eq, Bool.and_true, Bool.and_eq_true, decide_eq_true_iff,
            decide_eq_true_iff]
          exact ⟨hkat, hne⟩
        have hkj : k = jobId := (key_of_lookup hjob).symm.trans hsame
        exact ⟨_, hkj ▸ hk, hkat⟩
      · obtain ⟨job, hmem, hjob⟩ := List.any_eq_true.mp (Bool.and_eq_true_iff.mp hrow).2
        simp only [isHandoffRow, Bool.and_eq_true, decide_eq_true_iff] at hjob
        obtain ⟨⟨⟨⟨rfl, hslot⟩, -⟩, -⟩, -⟩ := hjob
        exact ⟨job.hold, congrArg (Option.map hold) (lookup_of_mem ht.jobs hmem), hslot⟩
    have hstanding : slot.phase.standing ≠ .vacant := by
      rw [hs, Bool.or_eq_true, Bool.and_eq_true, decide_eq_true_iff, decide_eq_true_iff] at hphase
      rcases hphase with hphase | ⟨hphase, -⟩ <;> rw [some.inj hphase] <;> nofun
    have hnone :
        lookup JobRecord.jobId (s.jobs.filter fun item => decide (item.jobId ≠ jobId)) jobId
        = none := by
      rw [lookup_filter_ne]
      exact update_self _ _ _
    refine refines_accept { ht with jobs := distinct_append (distinct_filter ht.jobs _) hnone } ?_
    have hstep :=
      Step.own s.book jobId slotId slot.generation slot.phase.standing hseat hstanding hat
    refine step_tables hstep rfl ?_ rfl
    change Option.map JobRecord.hold ∘ lookup JobRecord.jobId (List.filter _ s.jobs ++ [_]) = _
    rw [lookup_append hnone, lookup_filter_ne, comp_update, comp_update]
    exact update_idem _ _ _

omit hb in
/-- An assignment to a job row the book does not show. -/
theorem refines_setJob (hj : s.job? jobId = some job) (hf : ∀ job, (f job).jobId = job.jobId)
    (hhold : ∀ job, (f job).hold = job.hold) (hstep : Step s.book l s.book) :
    Refines s .quiet l (.accept (s.setJob jobId f) commands) := by
  refine refines_accept (ht.setJob hf) ?_
  rw [book_setJob ht hj (hf job) (hhold job)]
  exact hstep

theorem refines_jobWorkerLost :
    Refines s .quiet (.release jobId) (s.jobWorkerLost jobId generation) := by
  dsimp only [jobWorkerLost]
  cases hj : s.job? jobId with
  | none => exact refines_reject ht
  | some job =>
    dsimp only
    split
    case isFalse => exact refines_reject ht
    case isTrue h =>
      obtain ⟨rfl, -⟩ := h
      split
      case isTrue hpending =>
        obtain ⟨row, hmem, hrow⟩ := List.any_eq_true.mp hpending
        simp only [Bool.and_eq_true, decide_eq_true_iff] at hrow
        obtain ⟨⟨rfl, -⟩, hp⟩ := hrow
        refine refines_accept ht (.spare _ row.jobId row.debt ?_)
        exact owed_eq_some.mpr ⟨row, lookup_of_mem ht.outbox hmem, hp, rfl⟩
      case isFalse hpending =>
        refine refines_release ht hb hj ?_
        -- A debt of the job would be a pending row of its own generation.
        cases hd : s.book.debts jobId with
        | none => rfl
        | some d =>
          have hgen := (owned_of_debt hb hj hd).1
          obtain ⟨row, hr, hp, rfl⟩ := owed_eq_some.mp hd
          refine absurd (List.any_eq_true.mpr ⟨row, mem_of_lookup hr, ?_⟩) hpending
          rw [hp, Bool.and_true, Bool.and_eq_true, decide_eq_true_iff, decide_eq_true_iff]
          exact ⟨key_of_lookup hr, hgen.symm⟩

/-! ### Completions -/

omit ht hb in
theorem debt_of_live (hr : s.row? jobId = some row) (hlive : s.rowIsLive generation row = true) :
    s.book.debts jobId = some row.debt := by
  change owed (s.row? jobId) = _
  rw [hr]
  exact owed_of_pending (rowIsLive_iff.mp hlive).2.1

omit hb in
theorem refines_completionIntended {now : UnixTime} {payloadSha256 : String} :
    Refines s .quiet (.intend jobId) (s.completionIntended now jobId generation payloadSha256) := by
  obtain h | ⟨job, hj, hprov, rfl, -, ⟨_, hr, hlive, -, h⟩ | ⟨hr, h⟩⟩ :=
    @completionIntended_cases s jobId generation now payloadSha256 <;> rw [h]
  · exact refines_reject ht
  · exact refines_setJob ht hj (fun _ => rfl) (fun _ => rfl)
      (.repeated _ jobId _ (debt_of_live hr hlive))
  · have hts : (s.setJob jobId fun job => { job with phase := .completing }).Tidy :=
      ht.setJob fun _ => rfl
    refine refines_accept { hts with outbox := distinct_append hts.outbox hr } ?_
    have hstep := Step.intend s.book jobId job.hold
      (congrArg (Option.map hold) hj) hprov (congrArg owed hr)
    refine step_tables hstep rfl ?_ ?_
    · exact congrArg Book.holds (book_setJob ht
        (f := fun job => { job with phase := .completing }) hj rfl rfl)
    · change owed ∘ lookup OutboxRecord.jobId (s.outbox ++ [_]) = _
      rw [lookup_append (by exact hr), comp_update]
      rfl

/-- Closing a completion, if it is live. -/
theorem refines_closeCompletion {f : OutboxRecord → OutboxRecord} {Found : OutboxRecord → Prop}
    {out : ReduceOutcome}
    (h : RowArm s jobId generation Found out (s.closeCompletion jobId generation f))
    (hf : ∀ row, (f row).jobId = row.jobId) (hdone : ∀ row, (f row).isPending = false) :
    Refines s .quiet (.close jobId) out := by
  obtain rfl | ⟨row, hr, hlive, -, rfl⟩ := h
  · exact refines_reject ht
  have hdebt := debt_of_live hr hlive
  obtain ⟨hold, hhold, -⟩ := hb.owned jobId _ hdebt
  obtain ⟨job, hj, rfl⟩ := map_eq_some_iff.mp hhold
  obtain ⟨slot, hs, hgen, -⟩ := slot_of_job hb hj
  have hts : (s.setRow jobId f).Tidy := ht.setRow hf
  obtain ⟨htidy, hbook⟩ := restoreSlotAfterJobRemoval_spec hts hj hs hgen
  rw [book_setRow ht hr (hf row), owed_of_not_pending (hdone row)] at hbook
  refine refines_accept htidy (hbook ▸ ?_)
  exact .close s.book jobId row.debt job.hold slot.seat hdebt hhold (congrArg (Option.map seat) hs)

end JobEvents

end FleetState

/-! ## Every event -/

/-- The slot an event names, which is added if it is new. -/
def Event.opening : Event → Label SlotId JobId
  | .permitReserved slot _ | .executorProven slot _ | .sessionLive slot _
  | .registrationIntended slot _ | .registered slot _ | .registrationLost slot _
  | .readyAttempt slot _ | .jobAcquisitionIntended slot .. | .slotHeartbeat slot ..
  | .slotStale slot _ | .diskPressureTerminalFence slot _ => .add slot
  | _ => .quiet

/-- What the book is told of an accepted event. -/
def Event.label : Event → Label SlotId JobId
  | .permitReserved slot _ | .registered slot _ | .registrationLost slot _
  | .readyAttempt slot _ => .seat slot
  | .slotStale slot _ | .diskPressureTerminalFence slot _ => .fence slot
  | .jobAcquisitionIntended slot job .. => .occupy slot job
  | .jobAcquisitionResolved job acquired ..
  | .jobAcquisitionResolvedAtEndpoint job acquired .. => .retarget job acquired
  | .jobAcquisitionLost job .. | .jobWorkerLost job _ => .release job
  | .jobOwned job .. => .own job
  | .completionIntended job .. => .intend job
  | .completionSendStarted job _ => .claim job
  | .remoteAcked job _ | .remoteObservedTerminal job _ | .completionUnresolvable job ..
  | .completionPayloadLost job .. => .close job
  | _ => .quiet

open FleetState in
/-- One event of the reducer, as steps of the book. -/
theorem reduce_refines {s : FleetState} (ht : s.Tidy) (hb : Coherent s.book) (now : UnixTime)
    (event : Event) :
    FleetState.Refines s event.opening event.label (reduce now s event) := by
  cases event with
  | controlLive | journalWritable | dependency | desiredCapacity | canaryObserved
  | packageActivated => exact refines_fields ht rfl rfl rfl
  | routing =>
    refine refines_accept ⟨?_, ht.jobs, ht.outbox⟩ ?_
    · unfold Distinct
      rw [List.map_map]
      exact ht.slots
    · refine step_tables (.idle s.book) ?_ rfl rfl
      change Option.map seat ∘ lookup slotId (s.slots.map _) = _
      rw [lookup_map (by exact fun _ => rfl), ← comp_assoc, map_comp_map]
      rfl
  | permitReserved => exact refines_permitReserved ht hb
  | executorProven | sessionLive | slotHeartbeat =>
    exact refines_reportSlot ht (fun _ => rfl) fun _ => rfl
  | registrationIntended slotId =>
    dsimp only [reduce, registrationIntended]
    split
    · exact refines_reject_ensureSlot ht
    · exact ⟨ht.ensureSlot slotId, _, step_ensureSlot s slotId, .idle _⟩
  | registered =>
    dsimp only [reduce, FleetState.registered]
    split
    case isTrue => exact refines_reject_ensureSlot ht
    case isFalse h =>
      exact refines_setSlot_free ht (fun _ => rfl) (not_active_of_guard h) nofun
  | registrationLost =>
    dsimp only [reduce, registrationLost]
    split
    · exact refines_reject_ensureSlot ht
    split
    case isTrue =>
      exact refines_setSlot_fence ht (fun _ => rfl) (.inr rfl) (fun _ => rfl) (fun _ => rfl)
    case isFalse h =>
      rw [slotAdmissionBlocked, Bool.or_eq_true, not_or] at h
      exact refines_setSlot_free ht (fun _ => rfl) (Bool.eq_false_iff.mpr h.1) nofun
  | readyAttempt =>
    dsimp only [reduce, readyAttempt]
    split
    case isTrue => exact refines_reject_ensureSlot ht
    case isFalse h =>
      split
      · exact refines_setSlot_free ht (fun _ => rfl) (not_active_of_guard h) nofun
      · exact refines_reject_ensureSlot ht
  | jobAcquisitionIntended => exact refines_jobAcquisitionIntended ht
  | jobAcquisitionResolved => exact refines_retarget ht fun _ => rfl
  | jobAcquisitionResolvedAtEndpoint =>
    dsimp only [reduce, jobAcquisitionResolvedAtEndpoint]
    split
    · exact refines_reject ht
    · exact refines_retarget ht fun _ => rfl
  | acquisitionProbeFailed => exact refines_acquisitionProbeFailed ht
  | jobAcquisitionLost => exact refines_jobAcquisitionLost ht hb
  | jobOwned => exact refines_jobOwned ht hb
  | jobStarted jobId | jobTerminalResult jobId =>
    dsimp only [reduce, jobStarted, jobTerminalResult]
    cases hj : s.job? jobId with
    | none => exact refines_reject ht
    | some =>
      dsimp only
      split
      all_goals
        first
        | exact refines_reject ht
        | exact refines_setJob ht hj (fun _ => rfl) (fun _ => rfl) (.idle _)
  | completionIntended => exact refines_completionIntended ht
  | completionSendStarted jobId =>
    obtain h | ⟨row, hr, hlive, hunclaimed, h⟩ := completionSendStarted_cases <;> rw [reduce, h]
    · exact refines_reject ht
    refine refines_accept (ht.setRow fun _ => rfl) ?_
    have hpending : ({ row with sendStarted := true } : OutboxRecord).isPending = true :=
      (rowIsLive_iff.mp hlive).2.1
    rw [book_setRow ht hr rfl, owed_of_pending hpending]
    exact .claim s.book jobId row.debt (debt_of_live hr hlive) hunclaimed
  | remoteAcked | remoteObservedTerminal =>
    exact refines_closeCompletion ht hb remoteAcked_cases (fun _ => rfl) fun row => by
      simp [OutboxRecord.isPending]
  | completionAttemptFailed jobId =>
    obtain h | ⟨row, hr, hlive, -, h⟩ := completionAttemptFailed_cases <;> rw [reduce, h]
    · exact refines_reject ht
    refine refines_accept (ht.setRow fun _ => rfl) ?_
    have hdebt := debt_of_live hr hlive
    rw [book_setRow ht hr rfl, owed_of_pending (by exact (rowIsLive_iff.mp hlive).2.1)]
    change Step s.book .quiet { s.book with debts := update s.book.debts jobId (some row.debt) }
    rw [← hdebt, update_eq_self]
    exact .idle _
  | completionUnresolvable =>
    exact refines_closeCompletion ht hb completionUnresolvable_cases (fun _ => rfl) fun row => by
      simp [OutboxRecord.isPending]
  | completionPayloadLost =>
    exact refines_closeCompletion ht hb completionPayloadLost_cases (fun _ => rfl) fun row => by
      simp [OutboxRecord.isPending]
  | jobWorkerLost => exact refines_jobWorkerLost ht hb
  | cleanupIntended =>
    dsimp only [reduce, FleetState.cleanupIntended]
    split
    · exact refines_reject ht
    · exact refines_fields ht rfl rfl rfl
  | slotStale | diskPressureTerminalFence =>
    dsimp only [reduce, slotStale, diskPressureTerminalFence]
    split
    · exact refines_reject_ensureSlot ht
    · exact refines_setSlot_fence ht (fun _ => rfl) (.inl rfl) (fun _ => rfl) (fun _ => rfl)
  | packageRetireIntended =>
    dsimp only [reduce, FleetState.packageRetireIntended]
    split
    · exact refines_reject ht
    · exact refines_fields ht rfl rfl rfl

end Velnor.Control.Journal
