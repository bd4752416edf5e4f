/-
  What a committed batch did: one turn of the loop of `apply_many`
  (`applyEvent_cases`), the loop as a whole (`Taken`), and the database it
  leaves (`applyMany_cases`).
-/
import Velnor.Control.Journal.StoreRoundTrip

namespace Velnor.Control.Journal

open Rows Relational

/-- The outcome and the state after one more event. -/
inductive Turn (batch : Batch) (now : UnixTime) (event : Event) : Batch → Prop
  /-- A rejected outcome leaves only itself. -/
  | rejected (outcome : ReduceOutcome) (h : outcome.rejected = true) :
      Turn batch now event { batch with outcomes := batch.outcomes ++ [outcome] }
  | accepted (deactivations : List (SlotId × Int64))
      (h : (reduce now batch.state (stampEvent now event)).rejected = false) :
      Turn batch now event
        (batch.accept (stampEvent now event) (reduce now batch.state (stampEvent now event))
          deactivations)

variable {handle : Handle} {batch : Batch} {events : List (UnixTime × Event)} {db : Database}

variable {db' : Database} {s : FleetState} {pressure : Bool} {outcomes : List ReduceOutcome}

theorem applyEvent_cases {batch' : Batch} {entry : UnixTime × Event}
    (h : applyEvent handle pressure batch entry = .ok batch') :
    Turn batch entry.1 entry.2 batch' := by
  unfold applyEvent at h
  dsimp only at h
  split at h
  · cases h
  split at h
  · cases h
  split at h
  case isTrue hr =>
    cases h
    exact .rejected _ hr
  case isFalse hr =>
    rw [Bool.not_eq_true] at hr
    have houtcome : outcomeOf pressure entry.1 batch.state (stampEvent entry.1 entry.2)
        = reduce entry.1 batch.state (stampEvent entry.1 entry.2) := by
      unfold outcomeOf at hr ⊢
      split at hr
      · cases hr
      · next hpressure => rw [if_neg hpressure]
    rw [houtcome] at h hr
    split at h
    · cases h
      exact .accepted [] hr
    · obtain ⟨_, -, hok⟩ := bind_ok h
      cases hok
      exact .accepted _ hr

/-- What a batch of events made of the loaded state. -/
inductive Taken (s : FleetState) : List (UnixTime × Event) → Batch → Prop
  | start : Taken s [] ⟨s, [], [], []⟩
  | turn {done : List (UnixTime × Event)} {batch batch' : Batch}
      {entry : UnixTime × Event} (h : Taken s done batch)
      (hturn : Turn batch entry.1 entry.2 batch') : Taken s (done ++ [entry]) batch'

theorem taken_foldlM (h : events.foldlM (applyEvent handle pressure) ⟨s, [], [], []⟩ = .ok batch) :
    Taken s events batch :=
  foldlM_invariant (P := Taken s) (fun _ _ _ _ hdone hturn => hdone.turn (applyEvent_cases hturn))
    .start h

/-- Either nothing was to be written, or the batch's state was. -/
theorem commitBatch_cases (h : commitBatch handle db batch = .ok (outcomes, db')) :
    outcomes = batch.outcomes
      ∧ ∃ launches, batch.deactivations.foldlM (deactivate handle.service) db.launches
        = .ok launches
        ∧ ((batch.pending = [] ∧ db' = { db with launches })
          ∨ persistState { db with launches, events := db.events ++ batch.pending } batch.state
            = .ok db') := by
  obtain ⟨launches, hlaunches, h⟩ := bind_ok h
  split at h
  case isTrue hpending =>
    cases h
    exact ⟨rfl, launches, hlaunches, .inl ⟨hpending, rfl⟩⟩
  case isFalse =>
    obtain ⟨_, hwritten, h⟩ := bind_ok h
    cases h
    exact ⟨rfl, launches, hlaunches, .inr hwritten⟩

/-- The journal lets this handle write, and `s` is what it loads. -/
structure Writable (handle : Handle) (db : Database) (s : FleetState) : Prop where
  service : handle.validate db = .ok ()
  launch : handle.checkLaunch db = .ok ()
  load : loadMaterializedState db = .ok s
  valid : s.capacityInvalid = false

theorem applyMany_cases (h : applyMany handle db events = .ok (outcomes, db')) :
    (events = [] ∧ outcomes = [] ∧ db' = db)
      ∨ ∃ s batch, Writable handle db s ∧ Taken s events batch
        ∧ commitBatch handle db batch = .ok (outcomes, db') := by
  unfold applyMany at h
  split at h
  case isTrue hnil =>
    cases h
    exact .inl ⟨hnil, rfl, rfl⟩
  case isFalse =>
    obtain ⟨_, hservice, h⟩ := bind_ok h
    obtain ⟨_, hlaunch, h⟩ := bind_ok h
    obtain ⟨s, hload, h⟩ := bind_ok h
    split at h
    · cases h
    rename_i hvalid
    obtain ⟨batch, hbatch, h⟩ := bind_ok h
    exact .inr ⟨s, batch, ⟨hservice, hlaunch, hload, Bool.eq_false_iff.mpr hvalid⟩,
      taken_foldlM hbatch, h⟩

theorem Writable.applyMany (h : Writable handle db s) (hne : events ≠ []) :
    applyMany handle db events
      = (events.foldlM (applyEvent handle (db.pressureActive handle.service)) ⟨s, [], [], []⟩).bind
        (commitBatch handle db) := by
  unfold Journal.applyMany
  rw [if_neg hne, h.service, h.launch, h.load]
  simp only [bind, Except.bind, h.valid, Bool.false_eq_true, if_false]

/-- A batch without revoked leases is written if its rows have no two ids. -/
theorem commitBatch_of_insertable (hdeactivations : batch.deactivations = [])
    (h : batch.state.Insertable) :
    ∃ db', commitBatch handle db batch = .ok (batch.outcomes, db') := by
  unfold commitBatch
  rw [hdeactivations, List.foldlM_nil]
  by_cases hpending : batch.pending = []
  · exact ⟨_, if_pos hpending⟩
  · simp only [bind, Except.bind, pure, Except.pure, hpending, if_false, persistState, dif_pos h]
    exact ⟨_, rfl⟩

end Velnor.Control.Journal
