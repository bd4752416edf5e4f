/-
  Which committed batches leave a journal that still takes writes.

  A load refuses a journal with more slot rows than its declared capacity, and
  one with a signed cell below zero; the reducer checks neither.  After a
  batch the journal takes writes exactly when the capacity it last declared
  covers the slots it knows, and every cell is in range; otherwise every
  further batch is refused.
-/
import Velnor.Control.Journal.Frames
import Velnor.Control.Journal.Writes

namespace Velnor.Control.Journal

open Rows Relational FleetState List

/-! ## Slots and declared capacity along a batch -/

/-- The capacity in force, if one was ever declared. -/
def FleetState.declared (s : FleetState) : Option UInt32 :=
  if s.capacityDeclared then some s.desiredReady else none

def Event.declares : Event → Option UInt32
  | .desiredCapacity ready => some ready
  | _ => none

/-- The events of a batch that were not rejected. -/
def acceptedEvents (events : List (UnixTime × Event)) (outcomes : List ReduceOutcome) :
    List Event :=
  ((events.zip outcomes).filter fun taken => !taken.2.rejected).map fun taken => taken.1.2

/-- The last capacity the events declare, or the one before them. -/
def FleetState.declaredAfter (s : FleetState) (events : List Event) : Option UInt32 :=
  (events.filterMap Event.declares).getLast?.or s.declared

/-- The slots known before the events and the ones they name. -/
def FleetState.slotsAfter (s : FleetState) (events : List Event) : Finset SlotId :=
  s.slotIds.toFinset ∪ (events.filterMap Event.slotMut?).toFinset

variable {outcomes : List ReduceOutcome} (now : UnixTime) (event : Event)

/-- Only a declaration changes the declared capacity, and nothing the verdict
    of the load. -/
theorem declared_reduce (s : FleetState) (event : Event) :
    (reduce now s event).state.declared = event.declares.or s.declared
      ∧ (reduce now s event).state.capacityInvalid = s.capacityInvalid := by
  cases hfleet : event.isFleet with
  | false =>
    have hframe := (reduce_effects now s event).frame hfleet
    have hdeclared := congrArg declared hframe
    have hinvalid := congrArg capacityInvalid hframe
    refine ⟨.trans hdeclared ?_, hinvalid⟩
    cases event with
    | desiredCapacity => cases hfleet
    | _ => rfl
  | true =>
    cases event with
    | controlLive | journalWritable | dependency | routing | desiredCapacity | canaryObserved
    | packageActivated => exact ⟨rfl, rfl⟩
    | packageRetireIntended =>
      dsimp only [reduce, packageRetireIntended]
      split <;> exact ⟨rfl, rfl⟩
    | _ => cases hfleet

theorem toFinset_slotIds_ensureSlot (s : FleetState) (slotId : SlotId) :
    (s.ensureSlot slotId).slotIds.toFinset = insert slotId s.slotIds.toFinset := by
  unfold ensureSlot
  cases hs : s.slot? slotId with
  | some =>
    have hmem : slotId ∈ s.slotIds := key_of_lookup hs ▸ mem_map_of_mem (mem_of_lookup hs)
    exact (Finset.insert_eq_of_mem (mem_toFinset.mpr hmem)).symm
  | none =>
    unfold slotIds
    rw [map_append, toFinset_append, Finset.union_comm]
    rfl

theorem slotIds_reduce_toFinset (s : FleetState) (event : Event) :
    (reduce now s event).state.slotIds.toFinset
      = s.slotIds.toFinset ∪ event.slotMut?.toList.toFinset := by
  rw [(reduce_effects now s event).slotIds]
  cases event.slotMut? with
  | none => exact (Finset.union_empty _).symm
  | some =>
    rw [Option.elim_some, toFinset_slotIds_ensureSlot, Finset.insert_eq, Finset.union_comm]
    rfl

theorem stampEvent_slotMut? : (stampEvent now event).slotMut? = event.slotMut? := by
  cases event <;> rfl

theorem stampEvent_declares : (stampEvent now event).declares = event.declares := by
  cases event <;> rfl

variable {events : List (UnixTime × Event)} {s : FleetState} {batch : Batch} {db : Database}

theorem acceptedEvents_append (hlen : outcomes.length = events.length) (entry : UnixTime × Event)
    (outcome : ReduceOutcome) :
    acceptedEvents (events ++ [entry]) (outcomes ++ [outcome])
      = acceptedEvents events outcomes ++ if outcome.rejected then [] else [entry.2] := by
  unfold acceptedEvents
  rw [zip_append hlen.symm, filter_append, map_append]
  cases hr : outcome.rejected <;> simp [hr]

/-- What a batch has made of the slots and the capacity of the loaded state. -/
structure Outlook (s : FleetState) (events : List (UnixTime × Event)) (batch : Batch) : Prop where
  length : batch.outcomes.length = events.length
  slots : batch.state.slotIds.toFinset = s.slotsAfter (acceptedEvents events batch.outcomes)
  declared : batch.state.declared = s.declaredAfter (acceptedEvents events batch.outcomes)
  invalid : batch.state.capacityInvalid = s.capacityInvalid
  unlogged : batch.pending = [] → batch.state = s

theorem Outlook.start (s : FleetState) : Outlook s [] ⟨s, [], [], []⟩ where
  length := rfl
  slots := (Finset.union_empty _).symm
  declared := rfl
  invalid := rfl
  unlogged := fun _ => rfl

theorem Outlook.turn {done : List (UnixTime × Event)} {batch' : Batch} {entry : UnixTime × Event}
    (h : Outlook s done batch) (hturn : Turn batch entry.1 entry.2 batch') :
    Outlook s (done ++ [entry]) batch' := by
  cases hturn with
  | rejected outcome hr =>
    have haccepted : acceptedEvents (done ++ [entry]) (batch.outcomes ++ [outcome])
        = acceptedEvents done batch.outcomes := by
      rw [acceptedEvents_append h.length, if_pos hr, append_nil]
    refine ⟨?_, ?_, ?_, h.invalid, h.unlogged⟩
    · rw [length_append, length_append, h.length]
      rfl
    · rw [haccepted]
      exact h.slots
    · rw [haccepted]
      exact h.declared
  | accepted _ hr =>
    have haccepted : acceptedEvents (done ++ [entry])
        (batch.outcomes ++ [reduce entry.1 batch.state (stampEvent entry.1 entry.2)])
        = acceptedEvents done batch.outcomes ++ [entry.2] := by
      rw [acceptedEvents_append h.length, hr]
      rfl
    have hcapacity := declared_reduce entry.1 batch.state (stampEvent entry.1 entry.2)
    refine ⟨?_, ?_, ?_, hcapacity.2.trans h.invalid, ?_⟩
    · dsimp only [Batch.accept]
      rw [length_append, length_append, h.length]
      rfl
    · dsimp only [Batch.accept]
      rw [haccepted, slotIds_reduce_toFinset, stampEvent_slotMut?, h.slots]
      unfold slotsAfter
      cases hslot : entry.2.slotMut? <;> simp [hslot]
    · dsimp only [Batch.accept]
      rw [haccepted, hcapacity.1, stampEvent_declares, h.declared]
      unfold declaredAfter
      cases hready : entry.2.declares <;> simp [hready]
    · intro hpending
      dsimp only [Batch.accept] at hpending ⊢
      split at hpending
      case isTrue hsame => exact hsame.2.trans (h.unlogged hpending)
      case isFalse => exact absurd hpending (by simp)

theorem outlook_of_taken (h : Taken s events batch) : Outlook s events batch := by
  induction h with
  | start => exact .start s
  | turn _ hturn ih => exact ih.turn hturn

/-! ## Journals that take writes -/

/-- Some handle may declare any capacity. -/
def AcceptsWrites (db : Database) : Prop :=
  ∃ handle, ∀ now ready, ∃ outcome db',
    applyMany handle db [(now, .desiredCapacity ready)] = .ok ([outcome], db')
      ∧ outcome.rejected = false

/-- Every handle is refused every batch. -/
def Wedged (db : Database) : Prop :=
  ∀ handle events, events ≠ [] → ∃ error, applyMany handle db events = .error error

/-- A load goes through and finds the capacity valid. -/
def Usable (db : Database) : Prop :=
  ∃ s, loadMaterializedState db = .ok s ∧ s.capacityInvalid = false

theorem Usable.acceptsWrites (h : Usable db) : AcceptsWrites db := by
  obtain ⟨s, hload, hvalid⟩ := h
  let handle : Handle := ⟨none, db.identity⟩
  refine ⟨handle, fun now ready => ?_⟩
  let outcome := reduce now s (.desiredCapacity ready)
  let batch := Batch.accept ⟨s, [], [], []⟩ (.desiredCapacity ready) outcome []
  have hwritable : Writable handle db s := ⟨if_pos rfl, rfl, hload, hvalid⟩
  have hturn : applyEvent handle (db.pressureActive handle.service) ⟨s, [], [], []⟩
      (now, .desiredCapacity ready) = .ok batch := by
    cases db.pressureActive handle.service <;> rfl
  have htidy : batch.state.Tidy := (loaded_of_load hload).tidy.congr rfl rfl rfl
  obtain ⟨db', hcommit⟩ : ∃ db', commitBatch handle db batch = .ok ([outcome], db') :=
    commitBatch_of_insertable rfl (insertable_of_tidy htidy)
  refine ⟨outcome, db', ?_, rfl⟩
  rw [hwritable.applyMany (cons_ne_nil _ _), foldlM_cons, hturn]
  exact hcommit

theorem wedged_of_not_usable (h : ¬Usable db) : Wedged db := by
  intro handle events hne
  cases hok : applyMany handle db events with
  | error error => exact ⟨error, rfl⟩
  | ok =>
    exfalso
    obtain ⟨hnil, -⟩ | ⟨s, _, hwritable, -⟩ := applyMany_cases hok
    · exact hne hnil
    · exact h ⟨s, hwritable.load, hwritable.valid⟩

theorem not_wedged_of_acceptsWrites (h : AcceptsWrites db) : ¬Wedged db := by
  intro hwedged
  obtain ⟨handle, hwrites⟩ := h
  obtain ⟨_, _, hok, -⟩ := hwrites ⟨0, by decide⟩ 0
  obtain ⟨_, herror⟩ := hwedged handle _ (cons_ne_nil _ _)
  rw [hok] at herror
  cases herror

theorem usable_of_not_wedged (h : ¬Wedged db) : Usable db := by
  by_contra husable
  exact h (wedged_of_not_usable husable)

/-! ## After a batch -/

theorem stateCapacityInvalid_eq_false :
    s.stateCapacityInvalid = false ↔ ∀ n, s.declared = some n → s.slots.length ≤ n.toNat := by
  unfold stateCapacityInvalid declared
  cases s.capacityDeclared with
  | false | true => simp

theorem card_slotIds (h : Distinct SlotRecord.slotId s.slots) :
    s.slotIds.toFinset.card = s.slots.length := by
  have hnodup : s.slotIds.Nodup := h
  rw [toFinset_card_of_nodup hnodup]
  exact length_map _

/-- A stored state is usable if its rows fit and its capacity covers them. -/
theorem Stored.usable_iff (h : Stored db s) (hvalid : s.capacityInvalid = false) :
    Usable db ↔ db.InRange ∧ s.stateCapacityInvalid = false := by
  constructor
  · rintro ⟨_, hload, hloaded⟩
    have hrange := (loaded_of_load hload).inRange
    rw [h.load (h.inRange_iff.mp hrange)] at hload
    cases hload
    exact ⟨hrange, (Bool.or_eq_false_iff.mp hloaded).2⟩
  · rintro ⟨hrange, hcapacity⟩
    exact ⟨s.reloaded, h.load (h.inRange_iff.mp hrange),
      Bool.or_eq_false_iff.mpr ⟨hvalid, hcapacity⟩⟩

/-- The declared capacity covers the known slots after these events. -/
def FleetState.CoveredAfter (s : FleetState) (events : List Event) : Prop :=
  ∀ n, s.declaredAfter events = some n → (s.slotsAfter events).card ≤ n.toNat

theorem Outlook.coveredAfter_iff (h : Outlook s events batch)
    (hdistinct : Distinct SlotRecord.slotId batch.state.slots) :
    s.CoveredAfter (acceptedEvents events batch.outcomes)
      ↔ batch.state.stateCapacityInvalid = false := by
  unfold CoveredAfter
  rw [← h.slots, ← h.declared, card_slotIds hdistinct, stateCapacityInvalid_eq_false]

theorem usable_after_batch {handle : Handle} {db' : Database}
    (hload : loadMaterializedState db = .ok s) (hvalid : s.capacityInvalid = false)
    (htaken : Taken s events batch) (hcommit : commitBatch handle db batch = .ok (outcomes, db')) :
    Usable db' ↔ db'.InRange ∧ s.CoveredAfter (acceptedEvents events outcomes) := by
  have hloaded := loaded_of_load hload
  have houtlook := outlook_of_taken htaken
  obtain ⟨rfl, _, -, ⟨hpending, rfl⟩ | hwritten⟩ := commitBatch_cases hcommit
  · -- nothing was written: the tables are the ones the batch was read from
    have hsame := houtlook.unlogged hpending
    have hrange := hloaded.inRange
    refine iff_of_true ⟨s, hload, hvalid⟩ ⟨{ hrange with }, ?_⟩
    rw [houtlook.coveredAfter_iff (hsame ▸ hloaded.tidy.slots), hsame]
    exact hloaded.capacity hvalid
  · have hstored := stored_persistState hwritten
    have hkeyed := db'.slots_keyed
    rw [hstored.slots, Distinct, map_map] at hkeyed
    rw [hstored.usable_iff (houtlook.invalid.trans hvalid), houtlook.coveredAfter_iff hkeyed]

/-- A committed batch leaves a journal that takes writes exactly when the
    capacity then in force covers the slots then known and every cell is in
    range; otherwise every later batch is refused. -/
theorem committed_batch_writable_iff {handle : Handle} {db db' : Database}
    {events : List (UnixTime × Event)} {outcomes : List ReduceOutcome} (hbefore : ¬Wedged db)
    (h : applyMany handle db events = .ok (outcomes, db')) :
    ∃ s, loadMaterializedState db = .ok s
      ∧ (AcceptsWrites db'
        ↔ db'.InRange ∧ s.CoveredAfter (acceptedEvents events outcomes))
      ∧ (Wedged db' ↔ ¬AcceptsWrites db') := by
  obtain ⟨s, hload, hvalid⟩ := usable_of_not_wedged hbefore
  have husable : Usable db' ↔ db'.InRange ∧ s.CoveredAfter (acceptedEvents events outcomes) := by
    obtain ⟨rfl, rfl, rfl⟩ | ⟨_, _, hwritable, htaken, hcommit⟩ := applyMany_cases h
    · have hloaded := loaded_of_load hload
      exact iff_of_true ⟨s, hload, hvalid⟩ ⟨hloaded.inRange,
        ((Outlook.start s).coveredAfter_iff hloaded.tidy.slots).mpr (hloaded.capacity hvalid)⟩
    · cases hload.symm.trans hwritable.load
      exact usable_after_batch hload hvalid htaken hcommit
  have haccepts : AcceptsWrites db' ↔ Usable db' :=
    ⟨fun hwrites => usable_of_not_wedged (not_wedged_of_acceptsWrites hwrites),
      Usable.acceptsWrites⟩
  refine ⟨s, hload, haccepts.trans husable, fun hwedged hwrites =>
    not_wedged_of_acceptsWrites hwrites hwedged, fun hno => wedged_of_not_usable ?_⟩
  rwa [← haccepts]

/-- Two permits, under a capacity that is then lowered to `ready`. -/
def twoPermits (ready : UInt32) : List (UnixTime × Event) :=
  let now : UnixTime := ⟨0, by decide⟩
  [(now, .desiredCapacity 2), (now, .permitReserved "a" 1), (now, .permitReserved "b" 1),
    (now, .desiredCapacity ready)]

theorem committed_batch_writable_two_permits :
    ¬Wedged (Database.fresh none)
      ∧ ∃ outcomes db', applyMany ⟨none, none⟩ (Database.fresh none) (twoPermits 2)
          = .ok (outcomes, db') ∧ AcceptsWrites db' := by
  have hbefore : ¬Wedged (Database.fresh none) :=
    not_wedged_of_acceptsWrites (Usable.acceptsWrites ⟨_, rfl, rfl⟩)
  have hrun : (applyMany ⟨none, none⟩ (Database.fresh none) (twoPermits 2)).toOption.any
      (fun result => decide (acceptedEvents (twoPermits 2) result.1 = (twoPermits 2).map Prod.snd)
        && (loadMaterializedState result.2).toOption.any fun _ => true) = true := by decide +kernel
  obtain ⟨⟨outcomes, db'⟩, happly, hrest⟩ := ok_of_any hrun
  obtain ⟨haccepted, hloads⟩ := Bool.and_eq_true_iff.mp hrest
  obtain ⟨_, hs, haccepts, -⟩ := committed_batch_writable_iff hbefore happly
  obtain ⟨_, hload, -⟩ := ok_of_any hloads
  refine ⟨hbefore, outcomes, db', happly, haccepts.mpr ⟨(loaded_of_load hload).inRange, ?_⟩⟩
  rw [of_decide_eq_true haccepted]
  cases hs
  intro _ hn
  cases hn
  decide

theorem lowered_capacity_wedges :
    ¬Wedged (Database.fresh none)
      ∧ ∃ outcomes db', applyMany ⟨none, none⟩ (Database.fresh none) (twoPermits 1)
          = .ok (outcomes, db') ∧ Wedged db' := by
  have hrun : (applyMany ⟨none, none⟩ (Database.fresh none) (twoPermits 1)).toOption.any
      (fun result => (loadMaterializedState result.2).toOption.any capacityInvalid)
      = true := by decide +kernel
  obtain ⟨⟨outcomes, db'⟩, happly, hload⟩ := ok_of_any hrun
  refine ⟨not_wedged_of_acceptsWrites (Usable.acceptsWrites ⟨_, rfl, rfl⟩), outcomes, db', happly,
    wedged_of_not_usable ?_⟩
  rintro ⟨_, hs, hvalid⟩
  obtain ⟨_, hs', hinvalid⟩ := ok_of_any hload
  cases hs.symm.trans hs'
  exact absurd (hvalid.symm.trans hinvalid) nofun

end Velnor.Control.Journal
