/-
  What an event leaves alone.  The fields outside the three tables change only
  under the events about the fleet itself, the known slot ids only grow by the
  slot that `slot_mut` is asked for, and only completion events write the
  outbox.

  A slot the tables do not know counts as the record that `slot_mut` would
  add, so an event takes every slot one `SlotMove` on: within its generation,
  where a fence stays, or into a new one by a permit.
-/
import Velnor.Control.Journal.Refinement

namespace Velnor.Control.Journal

open Rows FleetState Function List

/-- The fields outside the tables. -/
def FleetState.frame (s : FleetState) : FleetState :=
  { s with slots := [], jobs := [], outbox := [] }

def FleetState.slotIds (s : FleetState) : List SlotId := s.slots.map SlotRecord.slotId

/-- The slot an event reads through `slot_mut`. -/
def Event.slotMut? : Event → Option SlotId
  | .permitReserved slotId _ | .executorProven slotId _ | .sessionLive slotId _
  | .registrationIntended slotId _ | .registered slotId _ | .registrationLost slotId _
  | .readyAttempt slotId _ | .jobAcquisitionIntended slotId _ _ _ _ _ | .slotHeartbeat slotId _ _
  | .slotStale slotId _ | .diskPressureTerminalFence slotId _ => some slotId
  | _ => none

/-- The events that write the outbox. -/
def Event.isCompletion : Event → Bool
  | .completionIntended .. | .completionSendStarted .. | .remoteAcked ..
  | .remoteObservedTerminal .. | .completionAttemptFailed .. | .completionUnresolvable ..
  | .completionPayloadLost .. => true
  | _ => false

/-- The events about the fleet rather than one of its slots or jobs. -/
def Event.isFleet : Event → Bool
  | .controlLive | .journalWritable | .dependency .. | .routing .. | .desiredCapacity ..
  | .canaryObserved .. | .packageActivated .. | .packageRetireIntended .. => true
  | _ => false

variable {out : ReduceOutcome} {generation : Generation} {f : OutboxRecord → OutboxRecord}

namespace FleetState

/-- From `s` to `s'` only the tables changed, no slot id beyond `named` was
    added, and the outbox only `completion` may have written. -/
structure Keeps (named : Option SlotId) (completion : Bool) (s s' : FleetState) : Prop where
  frame : s'.frame = s.frame
  slotIds : s'.slotIds = (named.elim s s.ensureSlot).slotIds
  outbox : completion = false → s'.outbox = s.outbox

variable {named : Option SlotId} {completion : Bool} {s s' : FleetState}

theorem frame_ensureSlot (s : FleetState) (slotId : SlotId) :
    (s.ensureSlot slotId).frame = s.frame := by
  unfold ensureSlot
  split <;> rfl

variable {slotId : SlotId} {jobId : JobId}

theorem keeps_refl : Keeps none completion s s := ⟨rfl, rfl, fun _ => rfl⟩

theorem keeps_ensureSlot : Keeps (some slotId) completion s (s.ensureSlot slotId) :=
  ⟨frame_ensureSlot s slotId, rfl, fun _ => outbox_ensureSlot s slotId⟩

theorem Keeps.setSlot (h : Keeps named completion s s') {f : SlotRecord → SlotRecord}
    (hf : ∀ slot, (f slot).slotId = slot.slotId) : Keeps named completion s (s'.setSlot slotId f) :=
  { h with slotIds := (map_modifyFirst (fun slot _ => hf slot) s'.slots).trans h.slotIds }

/-- A restored slot at most leaves one phase for another, neither a fence. -/
theorem restoreSlot_moves (s : FleetState) (job : JobRecord) :
    (s.restoreSlot job).1 = s
      ∨ ∃ slot phase, s.slot? job.slotId = some slot ∧ slot.phase ≠ .fenced ∧ phase ≠ .fenced
        ∧ (phase = .ready → slot.readyProof = true ∧ slot.registered = true)
        ∧ (s.restoreSlot job).1
          = s.setSlot job.slotId fun slot => { slot with phase := phase } := by
  cases hslot : s.slot? job.slotId with
  | none =>
    left
    unfold restoreSlot
    rw [hslot]
  | some slot =>
    by_cases hgen : slot.generation = job.generation
    · obtain ⟨-, heq⟩ | ⟨hfenced, phase, hvacant, hready, heq⟩ := restoreSlot_cases hslot hgen
      · exact .inl heq
      have hphase : phase ≠ .fenced := by
        rintro rfl
        cases hvacant
      exact .inr ⟨slot, phase, rfl, hfenced, hphase, hready, heq⟩
    · left
      unfold restoreSlot
      rw [hslot]
      exact congrArg Prod.fst (if_pos hgen)

theorem Keeps.restoreSlot (h : Keeps named completion s s') (job : JobRecord) :
    Keeps named completion s (s'.restoreSlot job).1 := by
  obtain heq | ⟨_, _, -, -, -, -, heq⟩ := restoreSlot_moves s' job
  · rwa [heq]
  · rw [heq]
    exact h.setSlot fun _ => rfl

theorem Keeps.restoreSlotAfterJobRemoval (h : Keeps named completion s s') (jobId : JobId) :
    Keeps named completion s (s'.restoreSlotAfterJobRemoval jobId).1 := by
  unfold FleetState.restoreSlotAfterJobRemoval
  split
  · exact h
  · rename_i job _
    have hdrop : Keeps named completion s (s'.dropJob jobId) := { h with }
    exact hdrop.restoreSlot job

theorem keeps_closeCompletion : Keeps none true s (s.closeCompletion jobId generation f).state := by
  have hrow : Keeps none true s (s.setRow jobId f) := ⟨rfl, rfl, nofun⟩
  exact hrow.restoreSlotAfterJobRemoval jobId

end FleetState

open FleetState

/-! ## Slots -/

/-- Both halves of the fleet's routing. -/
def FleetState.routing (s : FleetState) : Bool := s.routingValid && s.runnerGroupValid

/-- A ready slot is registered and its actor proved itself; with a permit its
    routing is the fleet's. -/
structure SlotRecord.Certified (routing : Bool) (slot : SlotRecord) : Prop where
  ready : slot.phase = .ready →
    slot.registered = true ∧ slot.sessionLive = true ∧ slot.executorProven = true
  routed : slot.permitHeld = true → slot.routingValid = routing

def FleetState.Certified (s : FleetState) : Prop := ∀ slot ∈ s.slots, slot.Certified s.routing

/-- The slot a command starts something for. -/
def SideEffect.starts : SideEffect → Option SlotId
  | .spawnSlot slotId _ | .registerRunner slotId _ => some slotId
  | _ => none

/-- What an accepted event and its commands do to a slot. -/
inductive SlotMove (event : Option Event) (commands : List SideEffect) (k : SlotId)
    (slot next : SlotRecord) : Prop where
  /-- Within its generation: nothing is started in a fenced slot. -/
  | within (generation : next.generation = slot.generation)
      (fenced : slot.phase = .fenced → next.phase = .fenced ∧ next.registered = slot.registered
        ∧ ∀ c ∈ commands, c.starts ≠ some k)
  /-- A permit for a newer generation, which has no proof of its predecessor. -/
  | renewed (permit : event = some (.permitReserved k next.generation))
      (newer : slot.generation < next.generation)
      (clean : next.executorProven = false ∧ next.sessionLive = false ∧ next.registered = false
        ∧ next.pid = none ∧ next.heartbeatUnix = 0)

theorem SlotMove.keep {event : Option Event} {commands : List SideEffect} {k : SlotId}
    {slot : SlotRecord} (h : ∀ c ∈ commands, c.starts = some k → slot.phase ≠ .fenced) :
    SlotMove event commands k slot slot :=
  .within rfl fun hfenced => ⟨hfenced, rfl, fun c hc hk => h c hc hk hfenced⟩

/-- The event, unless it was rejected. -/
def ReduceOutcome.taken (out : ReduceOutcome) (event : Event) : Option Event :=
  if out.rejected then none else some event

/-- What an event leaves of the slots. -/
structure Steps (s : FleetState) (event : Event) (out : ReduceOutcome) : Prop where
  certified : s.Certified → out.state.Certified
  moves : s.Tidy → ∀ k,
    SlotMove (out.taken event) out.commands k (s.slotMut k) (out.state.slotMut k)

section Arms

variable {s : FleetState} {event : Event} {slotId : SlotId} {commands : List SideEffect}

/-- Slots that stay as they are. -/
theorem steps_keep (hcertified : s.Certified → out.state.Certified)
    (hread : out.state.slotMut = s.slotMut)
    (hstarts : ∀ c ∈ out.commands, ∀ k, c.starts = some k → (s.slotMut k).phase ≠ .fenced) :
    Steps s event out := by
  refine ⟨hcertified, fun _ k => ?_⟩
  rw [hread]
  exact .keep fun c hc => hstarts c hc k

theorem certified_ensureSlot (h : s.Certified) : (s.ensureSlot slotId).Certified := by
  unfold FleetState.ensureSlot
  split
  · exact h
  · exact forall_mem_append.mpr ⟨h, forall_mem_singleton.mpr ⟨nofun, nofun⟩⟩

theorem slotMut_ensureSlot (s : FleetState) (slotId : SlotId) :
    (s.ensureSlot slotId).slotMut = s.slotMut := by
  funext k
  rw [slotMut, slots_ensureSlot, slotMut, update_apply]
  split
  case isTrue hk => rw [hk, Option.getD_some, slotMut]
  case isFalse => rfl

/-- A slot that is only looked at. -/
theorem steps_ensureSlot {rejected : Bool}
    (hstarts : ∀ c ∈ commands, ∀ k, c.starts = some k → (s.slotMut k).phase ≠ .fenced) :
    Steps s event ⟨s.ensureSlot slotId, commands, rejected⟩ :=
  steps_keep certified_ensureSlot (slotMut_ensureSlot s slotId) hstarts

/-- An assignment through `slot_mut`. -/
theorem steps_assign {f : SlotRecord → SlotRecord} (hf : ∀ slot, (f slot).slotId = slot.slotId)
    (hstarts : ∀ c ∈ commands, ∀ k, c.starts = some k → k = slotId)
    (hcertified : (s.slotMut slotId).Certified s.routing →
      (f (s.slotMut slotId)).Certified s.routing)
    (hmove : SlotMove (some event) commands slotId (s.slotMut slotId) (f (s.slotMut slotId))) :
    Steps s event (.accept ((s.ensureSlot slotId).setSlot slotId f) commands) := by
  have hslot := slot?_ensureSlot s slotId
  constructor
  · intro h
    have hrouting := congrArg routing (frame_ensureSlot s slotId)
    refine forall_modifyFirst (certified_ensureSlot h) fun slot hslot' hold => ?_
    cases hslot.symm.trans hslot'
    exact hrouting ▸ hcertified (hrouting ▸ hold)
  · intro ht k
    dsimp only [ReduceOutcome.accept]
    rw [slotMut, slotMut, slot?_setSlot (ht.ensureSlot slotId) hslot (hf _), slots_ensureSlot,
      update_idem, update_apply]
    split
    case isTrue hk => exact hk ▸ hmove
    case isFalse hk => exact .keep fun c hc hstart => absurd (hstarts c hc k hstart) hk

/-- A phase given back to a slot, `Ready` only on its proof. -/
theorem steps_removal (jobId : JobId) (hstarts : ∀ c ∈ commands, c.starts = none) :
    Steps s event (.accept (s.restoreSlotAfterJobRemoval jobId).1 commands) := by
  have hquiet {p : SlotId → Prop} : ∀ c ∈ commands, ∀ k, c.starts = some k → p k :=
    fun c hc k hk => nomatch (hstarts c hc).symm.trans hk
  unfold restoreSlotAfterJobRemoval
  split
  · exact steps_keep id rfl hquiet
  next job _ =>
  obtain heq | ⟨slot, phase, hslot, hfenced, -, hready, heq⟩ :=
    restoreSlot_moves (s.dropJob jobId) job <;> rw [heq]
  · exact steps_keep id rfl hquiet
  have hmut : (s.dropJob jobId).slotMut job.slotId = slot := by rw [slotMut, hslot]; rfl
  have hassign : Steps (s.dropJob jobId) event _ := steps_assign
    (f := fun slot => { slot with phase := phase }) (fun _ => rfl) hquiet
    (fun h => ⟨fun hphase => ?_, h.routed⟩)
    (.within rfl fun h => absurd (hmut ▸ h) hfenced)
  · rw [ensureSlot, hslot] at hassign
    exact ⟨hassign.certified, fun ht => hassign.moves (Tidy.dropJob ht jobId)⟩
  · obtain ⟨hproof, hregistered⟩ := hready hphase
    simp only [SlotRecord.readyProof, Bool.and_eq_true] at hproof
    rw [hmut]
    exact ⟨hregistered, hproof.1.2, hproof.2⟩

theorem starts_restoreSlotAfterJobRemoval (s : FleetState) (jobId : JobId) :
    ∀ c ∈ (s.restoreSlotAfterJobRemoval jobId).2, c.starts = none := by
  unfold restoreSlotAfterJobRemoval restoreSlot
  repeat' split
  all_goals simp [SideEffect.starts]

theorem steps_closeCompletion {jobId : JobId} (hf : ∀ row, (f row).jobId = row.jobId) :
    Steps s event (s.closeCompletion jobId generation f) := by
  have hremoval : Steps (s.setRow jobId f) event (s.closeCompletion jobId generation f) :=
    steps_removal jobId (forall_mem_cons.mpr
      ⟨rfl, starts_restoreSlotAfterJobRemoval (s.setRow jobId f) jobId⟩)
  exact ⟨hremoval.certified, fun ht => hremoval.moves (ht.setRow hf)⟩

theorem steps_reserved (hle : ¬generation < (s.slotMut slotId).generation)
    (hunfenced : generation = (s.slotMut slotId).generation → (s.slotMut slotId).phase ≠ .fenced) :
    Steps s (.permitReserved slotId generation)
      (.accept
        ((s.ensureSlot slotId).setSlot slotId fun slot => reserved slot generation s.routing)
        [.spawnSlot slotId generation]) := by
  refine steps_assign (fun slot => reserved_slotId slot _ _) (by simp [SideEffect.starts]) ?_ ?_
  · rintro ⟨hready, -⟩
    unfold reserved
    dsimp only
    repeat' split
    all_goals exact ⟨by simp_all, fun _ => rfl⟩
  · unfold reserved
    by_cases hlt : (s.slotMut slotId).generation < generation
    · simp only [hlt, if_true]
      exact .renewed rfl hlt ⟨rfl, rfl, rfl, rfl, rfl⟩
    · have heq := UInt64.le_antisymm (UInt64.not_lt.mp hlt) (UInt64.not_lt.mp hle)
      simp only [hlt, if_false]
      refine .within ?_ fun hfenced => absurd hfenced (hunfenced heq)
      split <;> exact heq

theorem steps_routing {valid groupValid : Bool} {now : UnixTime} :
    Steps s event (reduce now s (.routing valid groupValid)) where
  certified h := forall_mem_map.mpr fun slot hslot => ⟨(h slot hslot).ready, fun _ => rfl⟩
  moves _ k := by
    dsimp only [reduce, ReduceOutcome.accept, slotMut, slot?]
    rw [lookup_map (by exact fun _ => rfl), comp_apply]
    cases lookup SlotRecord.slotId s.slots k with
    | none => exact .keep nofun
    | some => exact .within rfl fun hfenced => ⟨hfenced, rfl, nofun⟩

end Arms

/-- All that an event does besides. -/
structure Effects (s : FleetState) (event : Event) (out : ReduceOutcome) : Prop
    extends Steps s event out where
  frame : event.isFleet = false → out.state.frame = s.frame
  slotIds : out.state.slotIds = (event.slotMut?.elim s s.ensureSlot).slotIds
  outbox : event.isCompletion = false → out.state.outbox = s.outbox

theorem effects_of {s : FleetState} {event : Event}
    (h : Keeps event.slotMut? event.isCompletion s out.state) (hsteps : Steps s event out) :
    Effects s event out :=
  ⟨hsteps, fun _ => h.frame, h.slotIds, h.outbox⟩

theorem reduce_effects (now : UnixTime) (s : FleetState) (event : Event) :
    Effects s event (reduce now s event) := by
  cases event with
  | controlLive | journalWritable | dependency | desiredCapacity | canaryObserved
  | packageActivated => exact ⟨steps_keep id rfl nofun, nofun, rfl, fun _ => rfl⟩
  | packageRetireIntended =>
    dsimp only [reduce, packageRetireIntended]
    split <;> exact ⟨steps_keep id rfl nofun, nofun, rfl, fun _ => rfl⟩
  | routing => exact ⟨steps_routing, nofun, map_map, fun _ => rfl⟩
  -- the slot is read through `slot_mut`, and written or not
  | permitReserved =>
    dsimp only [reduce, permitReserved]
    split
    case isTrue => exact effects_of keeps_ensureSlot (steps_ensureSlot nofun)
    case isFalse hguard =>
      simp only [not_or, not_and] at hguard
      exact effects_of (keeps_ensureSlot.setSlot fun slot => reserved_slotId slot _ _)
        (steps_reserved hguard.1 hguard.2.2.2)
  | registrationIntended =>
    dsimp only [reduce, registrationIntended]
    split
    case isTrue => exact effects_of keeps_ensureSlot (steps_ensureSlot nofun)
    case isFalse =>
      exact effects_of keeps_ensureSlot (steps_ensureSlot (by simp_all [SideEffect.starts]))
  | executorProven | sessionLive | slotHeartbeat | registered | registrationLost | readyAttempt
  | slotStale | diskPressureTerminalFence =>
    dsimp only [reduce, executorProven, sessionLive, slotHeartbeat, reportSlot,
      FleetState.registered, registrationLost, readyAttempt, slotStale,
      diskPressureTerminalFence]
    repeat' split
    all_goals
      first
        | exact effects_of keeps_ensureSlot (steps_ensureSlot nofun)
        | exact effects_of (keeps_ensureSlot.setSlot fun _ => rfl)
            (steps_assign (fun _ => rfl) (by simp [SideEffect.starts])
              (fun ⟨hready, hrouted⟩ => ⟨by simp_all [SlotRecord.readyProof], by simp_all⟩)
              (.within rfl (by simp_all [SideEffect.starts])))
  | jobAcquisitionIntended slotId jobId generation message url intended =>
    dsimp only [reduce, jobAcquisitionIntended]
    split
    case isTrue => exact effects_of keeps_ensureSlot (steps_ensureSlot nofun)
    case isFalse hguard =>
      have hready := not_not.mp (not_or.mp (not_or.mp hguard).2).1
      have hassign : Steps s (.jobAcquisitionIntended slotId jobId generation message url intended)
          (.accept _ []) :=
        steps_assign (f := fun slot => { slot with phase := .assigned }) (fun _ => rfl) nofun
          (fun hslot => ⟨nofun, hslot.routed⟩)
          (.within rfl fun hfenced => nomatch hready.symm.trans hfenced)
      have hkeeps : Keeps (some slotId) false s
          ((s.ensureSlot slotId).setSlot slotId fun slot => { slot with phase := .assigned }) :=
        keeps_ensureSlot.setSlot fun _ => rfl
      exact effects_of { hkeeps with } ⟨hassign.certified, hassign.moves⟩
  -- one row of a job, of its completion or neither
  | jobAcquisitionResolved | jobAcquisitionResolvedAtEndpoint | acquisitionProbeFailed | jobOwned
  | jobStarted | jobTerminalResult | completionIntended | completionSendStarted
  | completionAttemptFailed | cleanupIntended =>
    dsimp only [reduce, jobAcquisitionResolved, jobAcquisitionResolvedAtEndpoint, retarget,
      acquisitionProbeFailed, jobOwned, jobStarted, jobTerminalResult, completionIntended,
      completionSendStarted, completionAttemptFailed, cleanupIntended]
    repeat' split
    all_goals
      refine ⟨steps_keep id rfl ?_, fun _ => rfl, rfl, ?_⟩
      · simp [ReduceOutcome.accept, ReduceOutcome.reject, SideEffect.starts]
      · first | exact fun _ => rfl | exact nofun
  -- the job goes, and its slot is restored
  | jobAcquisitionLost | jobWorkerLost | remoteAcked | remoteObservedTerminal
  | completionUnresolvable | completionPayloadLost =>
    dsimp only [reduce, jobAcquisitionLost, jobWorkerLost, remoteAcked, completionUnresolvable,
      completionPayloadLost]
    repeat' split
    all_goals
      first
        | exact effects_of keeps_refl (steps_keep id rfl nofun)
        | exact effects_of (keeps_refl.restoreSlotAfterJobRemoval _)
            (steps_removal _ (starts_restoreSlotAfterJobRemoval s _))
        | exact effects_of keeps_closeCompletion (steps_closeCompletion fun _ => rfl)

end Velnor.Control.Journal
