/-
  Resolving provisional acquisitions when a slot starts (complete.rs,
  `resolve_provisional_acquisitions`).  The pass goes over the provisional
  rows of every slot; the events it writes name a job only, and the launch
  fence of the handle does not ask which slot they are about.

  So the pass is local to the starting slot, whatever the run service answers,
  exactly when the handle may not write at all or every provisional row is the
  slot's own.
-/
import Velnor.Control.Journal.Frames
import Velnor.Control.Journal.Writes

namespace Velnor.Control.Journal

open Rows Relational FleetState Function List

/-! ## The pass -/

/-- What `renewjob` says of a provisional row. -/
inductive AcquisitionVerdict where
  | owned
  | notOurs
  | indeterminate
  deriving DecidableEq, Repr

structure ResolvedAcquisition where
  jobId : JobId
  verdict : AcquisitionVerdict
  abandoned : Bool
  deriving DecidableEq, Repr

inductive RecoveryError where
  | journal (error : StoreError)
  | jobOwnedRejected (jobId : JobId)
  | jobAcquisitionLostRejected (jobId : JobId)
  deriving DecidableEq, Repr

section Writes

variable (handle : Handle) (db : Database) (clock : UnixTime) (event : Event) (row : JobRecord)

/-- `Journal::apply`, and whether the event was accepted. -/
def applyOne : Except StoreError Bool × Database :=
  match applyMany handle db [(clock, event)] with
  | .ok (outcomes, db') => (.ok (outcomes.all fun outcome => !outcome.rejected), db')
  | .error error => (.error error, db)

/-- `confirm_acquisition` and `abandon_acquisition` take a rejection for an
    error. -/
def applyOrBail (rejected : RecoveryError) : Except RecoveryError Unit × Database :=
  match applyOne handle db clock event with
  | (.ok true, db') => (.ok (), db')
  | (.ok false, db') => (.error rejected, db')
  | (.error error, db') => (.error (.journal error), db')

def confirmEvent : Event :=
  .jobOwned row.jobId row.slotId 1 row.generation ("velnor-job@" ++ row.jobId) 0

def confirmAcquisition : Except RecoveryError Unit × Database :=
  applyOrBail handle db clock (confirmEvent row) (.jobOwnedRejected row.jobId)

def abandonAcquisition (reason : String) : Except RecoveryError Unit × Database :=
  applyOrBail handle db clock (.jobAcquisitionLost row.jobId row.generation reason)
    (.jobAcquisitionLostRejected row.jobId)

/-- A charge that fails is only logged. -/
def chargeAcquisitionProbe : Database :=
  (applyOne handle db clock (.acquisitionProbeFailed row.jobId row.generation)).2

end Writes

/-! The reasons for an abandoned acquisition. -/

def unnamedReply : String :=
  "the acquire reply never named a job, so no renewal can prove ownership"

def spentProbeBudget : String :=
  "the acquisition probe budget is spent; the run service will time the job out"

def notHeld : String := "run service reports the job is not held by this runner"

section Pass

variable (handle : Handle) (now : UInt64) (clock : JobRecord → UnixTime)
  (probe : JobRecord → AcquisitionVerdict)

/-- One turn of the loop; `clock` is the reading its write meets. -/
def resolveRow (db : Database) (row : JobRecord) :
    Except RecoveryError ResolvedAcquisition × Database :=
  if row.planId = "" then
    let (result, db) := abandonAcquisition handle db (clock row) row unnamedReply
    (result.map fun _ => ⟨row.jobId, .indeterminate, true⟩, db)
  else if row.probeBudgetExhausted now then
    let (result, db) := abandonAcquisition handle db (clock row) row spentProbeBudget
    (result.map fun _ => ⟨row.jobId, .indeterminate, true⟩, db)
  else
    match probe row with
    | .owned =>
      let (result, db) := confirmAcquisition handle db (clock row) row
      (result.map fun _ => ⟨row.jobId, .owned, false⟩, db)
    | .notOurs =>
      let (result, db) := abandonAcquisition handle db (clock row) row notHeld
      (result.map fun _ => ⟨row.jobId, .notOurs, true⟩, db)
    | .indeterminate =>
      (.ok ⟨row.jobId, .indeterminate, false⟩, chargeAcquisitionProbe handle db (clock row) row)

/-- The first error ends the pass; what was written before it stays. -/
def resolveRows : List JobRecord → Database →
    Except RecoveryError (List ResolvedAcquisition) × Database
  | [], db => (.ok [], db)
  | row :: rows, db =>
    match resolveRow handle now clock probe db row with
    | (.ok resolved, db) =>
      let (rest, db) := resolveRows rows db
      (rest.map (resolved :: ·), db)
    | (.error error, db) => (.error error, db)

def resolveProvisionalAcquisitions (db : Database) :
    Except RecoveryError (List ResolvedAcquisition) × Database :=
  match loadMaterializedState db with
  | .ok state => resolveRows handle now clock probe (state.jobs.filter JobRecord.provisional) db
  | .error error => (.error (.journal error), db)

end Pass

/-! ## What one event leaves alone -/

/-- From `s` to `s'` no job row of another slot changed, and no phase of one. -/
structure LocalTo (me : SlotId) (s s' : FleetState) : Prop where
  jobs : ∀ jobId job, job.slotId ≠ me → (s'.job? jobId = some job ↔ s.job? jobId = some job)
  phases : ∀ slotId, slotId ≠ me →
    (s'.slot? slotId).map SlotRecord.phase = (s.slot? slotId).map SlotRecord.phase

section Event

variable {me : SlotId} {s t t' : FleetState} {jobId : JobId}

theorem localTo_refl (s : FleetState) : LocalTo me s s := ⟨fun _ _ _ => Iff.rfl, fun _ _ => rfl⟩

theorem LocalTo.trans (h : LocalTo me s t) (h' : LocalTo me t t') : LocalTo me s t' where
  jobs jobId job hne := (h'.jobs jobId job hne).trans (h.jobs jobId job hne)
  phases slotId hne := (h'.phases slotId hne).trans (h.phases slotId hne)

/-- One row of the slot may change, and the slot itself. -/
theorem localTo_update {left : Option JobRecord}
    (hjob : ∀ job, t.job? jobId = some job → job.slotId = me)
    (hjobs : t'.job? = update t.job? jobId left) (hleft : ∀ job, left = some job → job.slotId = me)
    (hslots : ∀ slotId, slotId ≠ me → t'.slot? slotId = t.slot? slotId) : LocalTo me t t' where
  jobs other job hne := by
    rw [hjobs]
    by_cases heq : other = jobId
    · rw [heq, update_self]
      exact iff_of_false (fun h => hne (hleft job h)) fun h => hne (hjob job h)
    · rw [update_of_ne heq]
  phases slotId hne := congrArg _ (hslots slotId hne)

theorem slot?_restoreSlot (ht : t.Tidy) (job : JobRecord) (slotId : SlotId) :
    (t.restoreSlot job).1.slot? slotId = t.slot? slotId
      ∨ slotId = job.slotId ∧ ∃ slot phase, t.slot? slotId = some slot ∧ phase ≠ .fenced
        ∧ (t.restoreSlot job).1.slot? slotId = some { slot with phase := phase } := by
  obtain heq | ⟨slot, phase, hslot, -, hphase, -, heq⟩ := restoreSlot_moves t job
  · exact .inl (by rw [heq])
  rw [heq, slot?_setSlot ht hslot rfl]
  by_cases hne : slotId = job.slotId
  · rw [hne, update_self]
    exact .inr ⟨rfl, slot, phase, hslot, hphase, rfl⟩
  · exact .inl (update_of_ne hne _ _)

theorem job?_restoreSlot (job : JobRecord) : (t.restoreSlot job).1.job? = t.job? := by
  obtain heq | ⟨_, _, -, -, -, -, heq⟩ := restoreSlot_moves t job <;> rw [heq]
  rfl

theorem FleetState.Tidy.restoreSlot (ht : t.Tidy) (job : JobRecord) :
    (t.restoreSlot job).1.Tidy := by
  obtain heq | ⟨_, _, -, -, -, -, heq⟩ := restoreSlot_moves t job <;> rw [heq]
  · exact ht
  · exact ht.setSlot fun _ => rfl

theorem FleetState.Fits.restoreSlot (h : t.Fits) (job : JobRecord) :
    (t.restoreSlot job).1.Fits := by
  obtain heq | ⟨_, _, -, -, -, -, heq⟩ := restoreSlot_moves t job <;> rw [heq]
  · exact h
  · exact { h with slots := forall_modifyFirst h.slots fun _ _ hslot => hslot }

theorem FleetState.Fits.dropJob (h : t.Fits) (jobId : JobId) : (t.dropJob jobId).Fits :=
  { h with jobs := fun job hjob => h.jobs job (mem_of_mem_filter hjob) }

end Event

section Row

variable {now : UInt64} {probe : JobRecord → AcquisitionVerdict} {t : FleetState} {row : JobRecord}

/-- What the pass writes for a row. -/
def recoveryEvent (now : UInt64) (probe : JobRecord → AcquisitionVerdict) (row : JobRecord) :
    Event :=
  if row.planId = "" then
    .jobAcquisitionLost row.jobId row.generation unnamedReply
  else if row.probeBudgetExhausted now then
    .jobAcquisitionLost row.jobId row.generation spentProbeBudget
  else
    match probe row with
    | .owned => confirmEvent row
    | .notOurs => .jobAcquisitionLost row.jobId row.generation notHeld
    | .indeterminate => .acquisitionProbeFailed row.jobId row.generation

section Local

variable (ht : t.Tidy) (hjob : ∀ job, t.job? row.jobId = some job → job.slotId = row.slotId)
include ht hjob

theorem local_jobAcquisitionLost (generation : Generation) :
    LocalTo row.slotId t (t.jobAcquisitionLost row.jobId generation).state := by
  dsimp only [jobAcquisitionLost]
  split
  · dsimp only [restoreSlotAfterJobRemoval]
    cases hj : t.job? row.jobId with
    | none => exact localTo_refl t
    | some job =>
      have hjobs : ((t.dropJob row.jobId).restoreSlot job).1.job?
          = update t.job? row.jobId none :=
        (job?_restoreSlot job).trans (lookup_filter_ne t.jobs row.jobId)
      refine localTo_update hjob hjobs nofun fun slotId hne => ?_
      obtain heq | ⟨heq, -⟩ := slot?_restoreSlot (ht.dropJob row.jobId) job slotId
      · exact heq
      · exact absurd (heq.trans (hjob job hj)) hne
  · exact localTo_refl t

omit ht in
theorem local_jobOwned (attempt : UInt32) (generation : Generation) (worker : String)
    (acceptedUnix : UInt64) :
    LocalTo row.slotId t
      (t.jobOwned row.jobId row.slotId attempt generation worker acceptedUnix).state := by
  dsimp only [jobOwned]
  split
  · exact localTo_refl t
  let owned := ownedJob row.jobId row.slotId attempt generation worker acceptedUnix
    (t.job? row.jobId)
  have hdrop : (t.dropJob row.jobId).job? = update t.job? row.jobId none :=
    lookup_filter_ne t.jobs row.jobId
  have hnone : lookup JobRecord.jobId (t.dropJob row.jobId).jobs owned.jobId = none :=
    (congrFun hdrop row.jobId).trans (update_self _ _ _)
  have hjobs : lookup JobRecord.jobId ((t.dropJob row.jobId).jobs ++ [owned])
      = update t.job? row.jobId (some owned) := by
    rw [lookup_append hnone]
    exact (congrArg (update · row.jobId (some owned)) hdrop).trans (update_idem _ _ _)
  refine localTo_update hjob hjobs (fun job hnew => ?_) fun _ _ => rfl
  cases hnew
  rfl

theorem local_acquisitionProbeFailed (generation : Generation) :
    LocalTo row.slotId t (t.acquisitionProbeFailed row.jobId generation).state := by
  dsimp only [acquisitionProbeFailed]
  split
  · rename_i job hfound
    have hj := ((find?_provisional ht row.jobId generation).mp hfound).1
    refine localTo_update (fun other hother => ?_) (lookup_modifyFirst ht.jobs hfound rfl)
      (fun charged hcharged => ?_) fun _ _ => rfl
    · rw [key_of_lookup hj] at hother
      exact hjob other hother
    · cases hcharged
      exact hjob job hj
  · exact localTo_refl t

end Local

theorem nonneg_unixSecs (time : UnixTime) : 0 ≤ (unixSecs time).toInt64 := by
  have hlt : (unixSecs time).toBitVec.toNat < 2 ^ 63 := by
    change time.secs % 2 ^ 64 < 2 ^ 63
    have := time.fits
    omega
  rw [Int64.le_iff_toInt_le]
  change 0 ≤ (unixSecs time).toBitVec.toInt
  rw [BitVec.toInt_eq_toNat_cond]
  split <;> omega

theorem recoveryEvent_cases (now : UInt64) (probe : JobRecord → AcquisitionVerdict)
    (row : JobRecord) :
    (∃ reason, recoveryEvent now probe row = .jobAcquisitionLost row.jobId row.generation reason)
      ∨ recoveryEvent now probe row = confirmEvent row
      ∨ recoveryEvent now probe row = .acquisitionProbeFailed row.jobId row.generation := by
  unfold recoveryEvent
  split
  · exact .inl ⟨_, rfl⟩
  split
  · exact .inl ⟨_, rfl⟩
  split
  · exact .inr (.inl rfl)
  · exact .inl ⟨_, rfl⟩
  · exact .inr (.inr rfl)

/-- An event about a row of the slot leaves the other slots alone. -/
theorem local_recoveryEvent (ht : t.Tidy)
    (hjob : ∀ job, t.job? row.jobId = some job → job.slotId = row.slotId) (time : UnixTime) :
    LocalTo row.slotId t (reduce time t (stampEvent time (recoveryEvent now probe row))).state := by
  obtain ⟨_, h⟩ | h | h := recoveryEvent_cases now probe row <;> rw [h]
  · exact local_jobAcquisitionLost ht hjob row.generation
  · exact local_jobOwned hjob _ _ _ _
  · exact local_acquisitionProbeFailed ht hjob row.generation

theorem fits_recoveryEvent (hfits : t.Fits) (hrow : row.Fits) (time : UnixTime) :
    (reduce time t (stampEvent time (recoveryEvent now probe row))).state.Fits := by
  obtain ⟨_, h⟩ | h | h := recoveryEvent_cases now probe row <;> rw [h]
  · dsimp only [stampEvent, reduce, jobAcquisitionLost, restoreSlotAfterJobRemoval]
    split
    · split
      · exact hfits
      · exact (hfits.dropJob row.jobId).restoreSlot _
    · exact hfits
  · dsimp only [stampEvent, confirmEvent, reduce, jobOwned]
    split
    · exact hfits
    refine ⟨hfits.slots, fun job hjob => ?_, hfits.outbox⟩
    obtain hold | hnew := mem_append.mp hjob
    · exact (hfits.dropJob row.jobId).jobs job hold
    · rw [mem_singleton.mp hnew]
      exact ⟨hrow.1, nonneg_unixSecs time, (by decide : (0 : Int64) ≤ 0)⟩
  · dsimp only [stampEvent, reduce, acquisitionProbeFailed]
    split
    · exact { hfits with jobs := forall_modifyFirst hfits.jobs fun _ _ hjob => hjob }
    · exact hfits

end Row

/-! ## The pass over its rows -/

variable {t' : FleetState} (rows : List JobRecord)

section Pass

variable {handle : Handle} {now : UInt64} {clock : JobRecord → UnixTime}
  {probe : JobRecord → AcquisitionVerdict} {db : Database} {row : JobRecord} {s t : FleetState}
  {me : SlotId}

/-- What one write leaves: the database as it was, the state as it was, or the
    reduced one. -/
theorem applyOne_cases (handle : Handle) (db : Database) (time : UnixTime) (event : Event) :
    (applyOne handle db time event).2 = db
      ∨ ∃ t t', Writable handle db t
        ∧ (t' = t ∨ t' = (reduce time t (stampEvent time event)).state)
        ∧ (loadMaterializedState (applyOne handle db time event).2 = .ok t
          ∨ Stored (applyOne handle db time event).2 t') := by
  unfold applyOne
  cases happly : applyMany handle db [(time, event)] with
  | error => exact .inl rfl
  | ok =>
    obtain ⟨hnil, -⟩ | ⟨t, -, hw, -, -⟩ := applyMany_cases happly
    · cases hnil
    rw [hw.applyMany (cons_ne_nil _ _)] at happly
    obtain ⟨batch, hbatch, hcommit⟩ := bind_ok happly
    obtain ⟨-, _, -, ⟨-, hdb⟩ | hwritten⟩ := commitBatch_cases hcommit
    · exact .inr ⟨t, t, hw, .inl rfl, .inl (hdb ▸ hw.load)⟩
    refine .inr ⟨t, batch.state, hw, ?_, .inr (stored_persistState hwritten)⟩
    obtain ⟨_, hturn, hpure⟩ := bind_ok hbatch
    cases hpure
    cases applyEvent_cases hturn with
    | rejected => exact .inl rfl
    | accepted => exact .inr rfl

theorem resolveRow_snd :
    (resolveRow handle now clock probe db row).2
      = (applyOne handle db (clock row) (recoveryEvent now probe row)).2 := by
  have hbail : ∀ event rejected, (applyOrBail handle db (clock row) event rejected).2
      = (applyOne handle db (clock row) event).2 := by
    intro _ _
    unfold applyOrBail
    split <;> simp_all
  unfold resolveRow recoveryEvent
  split
  · exact hbail _ _
  split
  · exact hbail _ _
  · cases probe row with
    | owned | notOurs => exact hbail _ _
    | indeterminate => rfl

/-- One turn over a row of the slot. -/
theorem resolveRow_local (hload : loadMaterializedState db = .ok t)
    (hlocal : LocalTo row.slotId s t)
    (hrow : s.job? row.jobId = some row) (hfits : row.Fits) :
    ∃ t', loadMaterializedState (resolveRow handle now clock probe db row).2 = .ok t'
      ∧ LocalTo row.slotId s t' := by
  rw [resolveRow_snd]
  obtain heq | ⟨_, t', hw, hstate, hleft⟩ :=
    applyOne_cases handle db (clock row) (recoveryEvent now probe row)
  · rw [heq]
    exact ⟨t, hload, hlocal⟩
  cases hload.symm.trans hw.load
  have hloaded := loaded_of_load hload
  have hjob : ∀ job, t.job? row.jobId = some job → job.slotId = row.slotId := by
    intro job hj
    by_contra hne
    cases hrow.symm.trans ((hlocal.jobs row.jobId job hne).mp hj)
    exact hne rfl
  have hstep : LocalTo row.slotId t t' ∧ t'.Fits := by
    obtain rfl | rfl := hstate
    · exact ⟨localTo_refl _, hloaded.fits⟩
    · exact ⟨local_recoveryEvent hloaded.tidy hjob (clock row),
        fits_recoveryEvent hloaded.fits hfits (clock row)⟩
  obtain hsame | hstored := hleft
  · exact ⟨t, hsame, hlocal⟩
  · exact ⟨t'.reloaded, hstored.load hstep.2, hlocal.trans ⟨hstep.1.jobs, hstep.1.phases⟩⟩

theorem resolveRows_local
    (hrows : ∀ row ∈ rows, s.job? row.jobId = some row ∧ row.Fits ∧ row.slotId = me)
    (hload : loadMaterializedState db = .ok t) (hlocal : LocalTo me s t) :
    ∃ t', loadMaterializedState (resolveRows handle now clock probe rows db).2 = .ok t'
      ∧ LocalTo me s t' := by
  induction rows generalizing db t with
  | nil => exact ⟨t, hload, hlocal⟩
  | cons row _ ih =>
    obtain ⟨⟨hrow, hfits, rfl⟩, hrows⟩ := forall_mem_cons.mp hrows
    obtain ⟨t₁, hload₁, hlocal₁⟩ :
        ∃ t', loadMaterializedState (resolveRow handle now clock probe db row).2 = .ok t'
          ∧ LocalTo row.slotId s t' := resolveRow_local hload hlocal hrow hfits
    unfold resolveRows
    split
    · rename_i heq
      rw [heq] at hload₁
      exact ih hrows hload₁ hlocal₁
    · rename_i heq
      rw [heq] at hload₁
      exact ⟨t₁, hload₁, hlocal₁⟩

/-- The slot a lease asks for. -/
def WorkerLaunchFence.holds (fence : WorkerLaunchFence) (slot : SlotRecord) : Bool :=
  decide (slot.slotId = fence.slotId) && decide (slot.generation = fence.generation.toUInt64)
    && decide (slot.phase ≠ .fenced)

/-- A lease stays current while its slot keeps its generation and no fence comes. -/
theorem checkLaunch_of_slots {db' : Database} (hw : Writable handle db t)
    (hlaunches : db'.launches = db.launches) (hload : loadMaterializedState db' = .ok t')
    (hvalid : t'.capacityInvalid = false)
    (hslots : ∀ fence : WorkerLaunchFence, t.slots.any fence.holds = true →
      t'.slots.any fence.holds = true) :
    handle.checkLaunch db' = .ok () := by
  have hlaunch := hw.launch
  unfold Handle.checkLaunch at hlaunch ⊢
  cases hfence : handle.workerLaunch with
  | none => rfl
  | some fence =>
    rw [hfence] at hlaunch
    obtain ⟨current, hcurrent, hlaunch⟩ := bind_ok hlaunch
    cases current with
    | false => cases hlaunch
    | true =>
      suffices hnow : db'.launchIsCurrent fence = .ok true by
        dsimp only
        rw [hnow]
        rfl
      unfold Database.launchIsCurrent at hcurrent ⊢
      rw [hlaunches, hload]
      rw [hw.load] at hcurrent
      dsimp only at hcurrent
      split at hcurrent
      · cases hcurrent
      rename_i hlease
      rw [if_neg hlease]
      split at hcurrent
      · cases hcurrent
      next hgen =>
        rw [if_neg hgen]
        have hany := (Bool.and_eq_true_iff.mp (Except.ok.inj hcurrent)).2
        exact congrArg Except.ok (Bool.and_eq_true_iff.mpr ⟨by rw [hvalid]; rfl, hslots fence hany⟩)

/-- The verdict on the capacity is about the known slots and what is declared. -/
theorem capacity_of_keeps (h : Keeps none false t t') :
    (t'.capacityInvalid || t'.stateCapacityInvalid)
      = (t.capacityInvalid || t.stateCapacityInvalid) := by
  have hlength : t'.slots.length = t.slots.length := by
    simpa [slotIds] using congrArg length h.slotIds
  have hframe := congrArg (fun s => (s.capacityInvalid ||
    (s.capacityDeclared && decide (t.slots.length > s.desiredReady.toNat)))) h.frame
  unfold stateCapacityInvalid
  rw [hlength]
  exact hframe

theorem reduce_lost (hj : t.job? row.jobId = some row) (hprov : row.provisional = true)
    (time : UnixTime) (reason : String) :
    reduce time t (.jobAcquisitionLost row.jobId row.generation reason)
      = .accept ((t.dropJob row.jobId).restoreSlot row).1
        ((t.dropJob row.jobId).restoreSlot row).2 := by
  have hfound : t.jobs.any (isProvisionalRow row.jobId row.generation) = true :=
    any_eq_true.mpr ⟨row, mem_of_lookup hj, by simp [isProvisionalRow, hprov]⟩
  dsimp only [reduce, jobAcquisitionLost]
  rw [if_pos hfound, restoreSlotAfterJobRemoval, hj]

/-- The slot of a lost row keeps a lease that it has. -/
theorem any_holds_restoreSlot (ht : t.Tidy) (job : JobRecord) {fence : WorkerLaunchFence}
    (h : t.slots.any fence.holds = true) : (t.restoreSlot job).1.slots.any fence.holds = true := by
  obtain ⟨slot, hslot, hholds⟩ := any_eq_true.mp h
  have hlookup : t.slot? slot.slotId = some slot := lookup_of_mem ht.slots hslot
  obtain heq | ⟨-, _, _, hslot', hphase, heq⟩ := slot?_restoreSlot ht job slot.slotId
  · exact any_eq_true.mpr ⟨slot, mem_of_lookup (heq.trans hlookup), hholds⟩
  cases hlookup.symm.trans hslot'
  refine any_eq_true.mpr ⟨_, mem_of_lookup heq, ?_⟩
  unfold WorkerLaunchFence.holds at hholds ⊢
  rw [Bool.and_eq_true] at hholds ⊢
  exact ⟨hholds.1, decide_eq_true hphase⟩

/-- A loaded provisional row is dropped, and the handle may go on writing. -/
theorem applyOne_lost (hw : Writable handle db t) (hrow : row ∈ t.jobs)
    (hprov : row.provisional = true) (time : UnixTime) (reason : String) :
    ∃ db' t', applyOne handle db time (.jobAcquisitionLost row.jobId row.generation reason)
        = (.ok true, db')
      ∧ Writable handle db' t' ∧ t'.job? = update t.job? row.jobId none := by
  have hloaded := loaded_of_load hw.load
  have hj : t.job? row.jobId = some row := lookup_of_mem hloaded.tidy.jobs hrow
  have hdrop := hloaded.tidy.dropJob row.jobId
  let event : Event := .jobAcquisitionLost row.jobId row.generation reason
  let dropped := ((t.dropJob row.jobId).restoreSlot row).1
  have hjobs : dropped.job? = update t.job? row.jobId none :=
    (job?_restoreSlot row).trans (lookup_filter_ne t.jobs row.jobId)
  have hne : dropped ≠ t := by
    intro heq
    rw [heq] at hjobs
    cases hj.symm.trans ((congrFun hjobs row.jobId).trans (update_self _ _ _))
  let batch := Batch.accept ⟨t, [], [], []⟩ event (reduce time t event) []
  have hstate : batch.state = dropped :=
    congrArg ReduceOutcome.state (reduce_lost hj hprov time reason)
  have hevent : applyEvent handle (db.pressureActive handle.service) ⟨t, [], [], []⟩ (time, event)
      = .ok batch := by
    simp only [applyEvent, event, Event.isTerminalFence, Event.isRecovery, stampEvent, outcomeOf,
      Event.admits, Event.revokes, Bool.and_false, Bool.false_eq_true, if_false]
    rw [if_neg]
    rw [reduce_lost hj hprov]
    exact Bool.false_ne_true
  have hpending : batch.pending = [event] := if_neg fun h => hne (hstate.symm.trans h.2)
  obtain ⟨db', hcommit⟩ : ∃ db', commitBatch handle db batch = .ok (batch.outcomes, db') :=
    commitBatch_of_insertable rfl (insertable_of_tidy (hstate ▸ hdrop.restoreSlot row))
  obtain ⟨-, _, hlaunches, ⟨hnil, -⟩ | hwritten⟩ := commitBatch_cases hcommit
  · cases hpending.symm.trans hnil
  cases hlaunches
  rw [hstate] at hwritten
  obtain ⟨hsame, hidentity⟩ := persistState_frame hwritten
  have hload : loadMaterializedState db' = .ok dropped.reloaded :=
    (stored_persistState hwritten).load ((hloaded.fits.dropJob row.jobId).restoreSlot row)
  have hvalid : dropped.reloaded.capacityInvalid = false := by
    have hkeeps : Keeps none false t dropped := by
      have hkeeps : Keeps none false t (t.dropJob row.jobId) := ⟨rfl, rfl, fun _ => rfl⟩
      exact hkeeps.restoreSlot row
    refine (capacity_of_keeps hkeeps).trans ?_
    rw [hw.valid, hloaded.capacity hw.valid]
    rfl
  refine ⟨db', dropped.reloaded, ?_, ⟨?_, ?_, hload, hvalid⟩, hjobs⟩
  · unfold applyOne
    rw [hw.applyMany (cons_ne_nil _ _), foldlM_cons, hevent]
    simp only [bind, Except.bind, foldlM_nil, pure, Except.pure]
    rw [hcommit]
    simp only [batch, event, Batch.accept, reduce_lost hj hprov, ReduceOutcome.accept,
      nil_append, all_cons, all_nil, Bool.not_false, Bool.and_self]
  · unfold Handle.validate
    rw [hidentity]
    exact hw.service
  · exact checkLaunch_of_slots hw hsame hload hvalid fun fence => any_holds_restoreSlot hdrop row

theorem resolveRow_notOurs (handle : Handle) (now : UInt64) (clock : JobRecord → UnixTime)
    (db : Database) (row : JobRecord) :
    ∃ reason resolved, resolveRow handle now clock (fun _ => .notOurs) db row
      = ((abandonAcquisition handle db (clock row) row reason).1.map fun _ => resolved,
        (abandonAcquisition handle db (clock row) row reason).2) := by
  unfold resolveRow
  split
  · exact ⟨_, _, rfl⟩
  · split <;> exact ⟨_, _, rfl⟩

/-- Where the run service disowns every job, the pass drops every row. -/
theorem resolveRows_drops (hw : Writable handle db t)
    (hrows : ∀ row ∈ rows, row ∈ t.jobs ∧ row.provisional = true)
    (hdistinct : Distinct JobRecord.jobId rows) :
    ∃ t', loadMaterializedState (resolveRows handle now clock (fun _ => .notOurs) rows db).2
        = .ok t'
      ∧ ∀ jobId, (t.job? jobId = none ∨ ∃ row ∈ rows, row.jobId = jobId) →
        t'.job? jobId = none := by
  induction rows generalizing db t with
  | nil => exact ⟨t, hw.load, fun jobId h => h.resolve_right (by simp)⟩
  | cons row rows ih =>
    obtain ⟨⟨hrow, hprov⟩, hrows⟩ := forall_mem_cons.mp hrows
    obtain ⟨hfresh, hdistinct⟩ := distinct_cons.mp hdistinct
    obtain ⟨reason, _, hresolve⟩ := resolveRow_notOurs handle now clock db row
    obtain ⟨_, t', happly, hw', hjobs⟩ := applyOne_lost hw hrow hprov (clock row) reason
    rw [abandonAcquisition, applyOrBail, happly] at hresolve
    have hkept : ∀ other ∈ rows, other ∈ t'.jobs := by
      intro other hother
      have hlookup := lookup_of_mem (loaded_of_load hw.load).tidy.jobs (hrows other hother).1
      refine mem_of_lookup (k := other.jobId) (?_ : t'.job? other.jobId = some other)
      rw [hjobs, update_of_ne (hfresh other hother)]
      exact hlookup
    obtain ⟨t'', hload, hnone⟩ :=
      ih hw' (fun other hother => ⟨hkept other hother, (hrows other hother).2⟩) hdistinct
    unfold resolveRows
    rw [hresolve]
    refine ⟨t'', hload, fun jobId h => hnone jobId ?_⟩
    by_cases heq : jobId = row.jobId
    · rw [hjobs, heq, update_self]
      exact .inl rfl
    rw [hjobs, update_of_ne heq]
    refine h.imp_right ?_
    rintro ⟨other, hother, hid⟩
    obtain rfl | hother := mem_cons.mp hother
    · exact absurd hid.symm heq
    · exact ⟨other, hother, hid⟩

/-- A handle that may not write leaves the database as it is. -/
theorem resolveRows_fenced (h : ∀ t, ¬Writable handle db t) (rows : List JobRecord) :
    (resolveRows handle now clock probe rows db).2 = db := by
  induction rows with
  | nil => rfl
  | cons row _ ih =>
    have hrow : (resolveRow handle now clock probe db row).2 = db := by
      rw [resolveRow_snd]
      refine (applyOne_cases handle db (clock row) (recoveryEvent now probe row)).resolve_right ?_
      rintro ⟨t, -, hw, -⟩
      exact h t hw
    unfold resolveRows
    split
    · rename_i heq
      rw [heq] at hrow
      cases hrow
      exact ih
    · rename_i heq
      rw [heq] at hrow
      exact hrow

end Pass

/-! ## Locality of the pass -/

/-- The start of the slot `me` changes no job row and no phase of another slot. -/
def StartsLocally (handle : Handle) (now : UInt64) (clock : JobRecord → UnixTime)
    (probe : JobRecord → AcquisitionVerdict) (me : SlotId) (db : Database) : Prop :=
  ∀ s, loadMaterializedState db = .ok s →
    ∃ s', loadMaterializedState (resolveProvisionalAcquisitions handle now clock probe db).2
        = .ok s'
      ∧ LocalTo me s s'

/-- Whatever the run service answers, the pass is local to the starting slot
    exactly when the handle may not write or every provisional row is the
    slot's own. -/
theorem recovery_local_iff (handle : Handle) (now : UInt64) (clock : JobRecord → UnixTime)
    (me : SlotId) (db : Database) :
    (∀ probe, StartsLocally handle now clock probe me db)
      ↔ ∀ s, Writable handle db s → ∀ row ∈ s.jobs, row.provisional = true → row.slotId = me := by
  constructor
  · intro h s hw row hrow hprov
    by_contra hne
    have htidy := (loaded_of_load hw.load).tidy
    obtain ⟨_, hload, hlocal⟩ := h (fun _ => .notOurs) s hw.load
    rw [resolveProvisionalAcquisitions, hw.load] at hload
    obtain ⟨_, hload', hnone⟩ := resolveRows_drops (s.jobs.filter JobRecord.provisional) hw
      (fun row hrow => mem_filter.mp hrow) (distinct_filter htidy.jobs _)
    cases hload.symm.trans hload'
    have hgone := hnone row.jobId (.inr ⟨row, mem_filter.mpr ⟨hrow, hprov⟩, rfl⟩)
    cases hgone.symm.trans ((hlocal.jobs row.jobId row hne).mpr (lookup_of_mem htidy.jobs hrow))
  · intro h _ s hload
    have hloaded := loaded_of_load hload
    rw [resolveProvisionalAcquisitions, hload]
    by_cases hw : Writable handle db s
    · refine resolveRows_local _ (fun row hrow => ?_) hload (localTo_refl s)
      obtain ⟨hrow, hprov⟩ := mem_filter.mp hrow
      exact ⟨lookup_of_mem hloaded.tidy.jobs hrow, hloaded.fits.jobs row hrow,
        h s hw row hrow hprov⟩
    · refine ⟨s, ?_, localTo_refl s⟩
      rw [resolveRows_fenced fun t ht => hw ?_]
      · exact hload
      · cases hload.symm.trans ht.load
        exact ht

/-- A second slot has just sent its `acquirejob`. -/
def midAcquire : List (UnixTime × Event) :=
  let now : UnixTime := ⟨100, by decide⟩
  [.routing true true, .desiredCapacity 2, .permitReserved "velnor-1" 1,
    .permitReserved "velnor-2" 1, .executorProven "velnor-2" 1, .sessionLive "velnor-2" 1,
    .registered "velnor-2" 1, .readyAttempt "velnor-2" 1,
    .jobAcquisitionIntended "velnor-2" "message-7" 1 "7" "https://run" 100].map (now, ·)

/-- The start of the first slot gives up what the second one is acquiring. -/
theorem start_abandons_live_acquisition :
    ∃ outcomes db, applyMany ⟨none, none⟩ (Database.fresh none) midAcquire = .ok (outcomes, db)
      ∧ ¬StartsLocally ⟨none, none⟩ 100 (fun _ => ⟨100, by decide⟩) (fun _ => .owned) "velnor-1"
        db := by
  have hrun : (applyMany ⟨none, none⟩ (Database.fresh none) midAcquire).toOption.any (fun result =>
      (loadMaterializedState result.2).toOption.any (fun s =>
        (s.job? "message-7").any (fun job => decide (job.slotId ≠ "velnor-1"))
          && (loadMaterializedState (resolveProvisionalAcquisitions ⟨none, none⟩ 100
              (fun _ => ⟨100, by decide⟩) (fun _ => .owned) result.2).2).toOption.any
            (fun s' => decide (s'.job? "message-7" = none)))) = true := by decide +kernel
  obtain ⟨⟨outcomes, db⟩, happly, hrest⟩ := ok_of_any hrun
  obtain ⟨s, hload, hrest⟩ := ok_of_any hrest
  obtain ⟨hbefore, hafter⟩ := Bool.and_eq_true_iff.mp hrest
  obtain ⟨job, hjob, hother⟩ := (Option.any_eq_true _ _).mp hbefore
  obtain ⟨_, hload', hgone⟩ := ok_of_any hafter
  refine ⟨outcomes, db, happly, fun hlocal => ?_⟩
  obtain ⟨_, heq, hkeeps⟩ := hlocal s hload
  cases hload'.symm.trans heq
  have hstill := (hkeeps.jobs "message-7" job (of_decide_eq_true hother)).mpr hjob
  cases (of_decide_eq_true hgone).symm.trans hstill

end Velnor.Control.Journal
