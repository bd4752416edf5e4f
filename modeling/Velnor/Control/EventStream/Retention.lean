/-
  The prune batches of the retention worker (store/retention.rs).  A prune pass
  is a sequence of such batches, each a transaction of its own, with other
  writers free to come in between.

  A batch chooses rows by age, by row count or under byte pressure and never
  removes an event that a nonterminal job or an open reconciliation protects.
  `Shrinks` is all that the event stream sees of a batch: some events are gone,
  and the summary row of every instance that lost one was recomputed.

  `julianday` is SQLite's; it orders the candidates and nothing depends on how.
-/
import Velnor.Control.EventStream.Store

namespace Velnor.Control.EventStream

open Relational List

/-! ## Budgets and counts -/

/-- `RetentionBudget`.  Ages are in nanoseconds, a zero cap disables its phase. -/
structure RetentionBudget where
  maxEventAge : Option Nat
  maxEventRows : Nat
  maxTerminalJobAge : Option Nat
  maxTerminalJobRows : Nat
  maxDatabaseBytes : Nat
  batchSize : Nat

/-- `PruneCounts`. -/
structure PruneCounts where
  deletedEvents : Nat
  deletedJobs : Nat
  deletedTransitions : Nat
  deriving DecidableEq, Repr

def PruneCounts.zero : PruneCounts := ⟨0, 0, 0⟩

def maxPruneBatchSize : Nat := 64

def maxRetentionWindowRows : Nat := 100000

/-- `prune_batch_size`: between one row and `MAX_PRUNE_BATCH_SIZE`. -/
def pruneBatchSize (budget : RetentionBudget) : Nat :=
  max 1 (min budget.batchSize maxPruneBatchSize)

/-- `minus_age`: whole seconds, and never before the epoch. -/
def minusAge (now : Timestamp) (age : Nat) : Timestamp :=
  let nowSeconds := (max (now / 1000000000) 0).toNat
  now - ((min (age / 1000000000) nowSeconds : Nat) : Int) * 1000000000

/-- The lease was lost before the deletion. -/
def leaseLost : StoreError := ⟨.conflict, "store.retention.lease.lost"⟩

/-! ## Protection -/

def canonicalTerminalPhases : List String := ["completed", "canceled", "rejected"]

def closedReconciliationStatuses : List String := ["completed", "canceled", "failed", "rejected"]

/-- `EXACT_EVENT_OWNERSHIP`. -/
def exactEventOwnership (s : Store) (e : StoredEvent) : Bool :=
  (e.row.transitionId.all fun id => s.transitions.any fun t =>
      t.id = id && t.instanceSlug = e.row.instanceSlug && t.jobUid = e.row.subject) &&
    (e.row.reconciliationId.all fun id => s.reconciliations.any fun r =>
      r.id = id && r.instanceSlug = e.row.instanceSlug)

/-- A job of the instance under the event's subject is not known to be over. -/
def jobActive (s : Store) (e : StoredEvent) : Bool :=
  s.jobs.any fun j => j.instanceSlug = e.row.instanceSlug && j.jobUid = e.row.subject &&
    !canonicalTerminalPhases.contains j.phase

/-- A reconciliation of the instance is not known to be closed. -/
def reconciliationOpen (s : Store) (instanceSlug : String) : Bool :=
  s.reconciliations.any fun r => r.instanceSlug = instanceSlug &&
    !closedReconciliationStatuses.contains r.status

/-- The `WHERE` clause shared by the event selections. -/
def prunable (s : Store) (e : StoredEvent) : Bool :=
  exactEventOwnership s e && !jobActive s e && !reconciliationOpen s e.row.instanceSlug

/-- The `WHERE` clause shared by the job selections. -/
def terminalJob (s : Store) (j : JobRow) : Bool :=
  canonicalTerminalPhases.contains j.phase && !reconciliationOpen s j.instanceSlug

/-! ## Selections -/

variable (julianday : Timestamp → Int)

/-- The oldest `batch` candidates before the cutoff.  The statement compares
    Julian days, the loop over its rows the timestamps themselves. -/
def expiredIds (cutoff : Timestamp) (batch : Nat) (candidates : List (Nat × Timestamp)) :
    List Nat :=
  let due := candidates.filter fun c => julianday c.2 < julianday cutoff
  let oldest := due.insertionSort fun a b =>
    julianday a.2 < julianday b.2 ∨ julianday a.2 = julianday b.2 ∧ a.1 ≤ b.1
  ((oldest.take batch).filter fun c => c.2 < cutoff).map Prod.fst

/-- `select_expired_event_ids`. -/
def selectExpiredEventIds (s : Store) (cutoff : Timestamp) (batch : Nat) : List Nat :=
  expiredIds julianday cutoff batch
    ((s.events.selectWhere (prunable s)).map fun e => (e.id, e.row.occurredAt))

/-- `select_expired_terminal_job_ids`. -/
def selectExpiredTerminalJobIds (s : Store) (cutoff : Timestamp) (batch : Nat) : List Nat :=
  expiredIds julianday cutoff batch
    ((s.jobs.filter (terminalJob s)).map fun j => (j.id, j.updatedAt))

/-- `protected_ids_below`. -/
def protectedIdsBelow (s : Store) (keepFromId batch : Nat) : List Nat :=
  ((s.events.selectWhere fun e => e.id < keepFromId && prunable s e).take batch).map Numbered.id

/-- `newest_window_start` over the ids of a table in ascending order. -/
def newestWindowStart (ids : List Nat) (keepRows : Nat) : Except StoreError (Option Nat) :=
  if keepRows > maxRetentionWindowRows then .error ⟨.operation, "store.retention.budget"⟩
  else .ok (ids.reverse[keepRows - 1]?)

variable (s : Store)

/-- `select_transition_ids`. -/
def selectTransitionIds (instanceSlug jobUid : String) (limit : Nat) : List Nat :=
  ((s.transitions.filter fun t => t.instanceSlug = instanceSlug && t.jobUid = jobUid).take
    limit).map TransitionRow.id

/-- `select_transition_event_ids`. -/
def selectTransitionEventIds (instanceSlug : String) (transitionIds : List Nat) (limit : Nat) :
    List Nat :=
  ((s.events.selectWhere fun e => ofInstance instanceSlug e &&
      e.row.transitionId.any fun id => transitionIds.contains id && s.transitions.any fun t =>
        t.id = id && t.instanceSlug = instanceSlug).take limit).map Numbered.id

/-! ## Deletions -/

/-- `refresh_event_stream_state_for_instance`. -/
def refreshEventStreamState (instanceSlug : String) : Except StoreError Store :=
  match s.streams instanceSlug with
  | none => .ok s
  | some state => do
    let first := (s.events.minId (ofInstance instanceSlug)).getD (state.highWaterId + 1)
    let high := max state.highWaterId ((s.events.maxId (ofInstance instanceSlug)).getD 0)
    let refreshed ← StreamState.checked? first high
    pure (s.setStream instanceSlug refreshed)

/-- Delete the events that `doomed` selects and refresh the given instances. -/
def deleteEvents (doomed : StoredEvent → Bool) (instances : List String) :
    Except StoreError (Nat × Store) := do
  let refreshed ← instances.foldlM refreshEventStreamState
    { s with events := s.events.deleteWhere doomed }
  pure ((s.events.selectWhere doomed).length, refreshed)

/-- `delete_events_by_ids`: every instance that loses an event is refreshed. -/
def deleteEventsByIds (ids : List Nat) : Except StoreError (Nat × Store) :=
  let doomed e := ids.contains e.id && exactEventOwnership s e
  if ids = [] then .ok (0, s)
  else deleteEvents s doomed ((s.events.selectWhere doomed).map fun e => e.row.instanceSlug).dedup

/-- `delete_events_for_instance_by_ids`. -/
def deleteEventsForInstanceByIds (instanceSlug : String) (ids : List Nat) :
    Except StoreError (Nat × Store) :=
  if ids = [] then .ok (0, s)
  else deleteEvents s (fun e => ofInstance instanceSlug e && ids.contains e.id &&
    exactEventOwnership s e) [instanceSlug]

/-- `delete_transition_rows_by_ids`. -/
def deleteTransitionRowsByIds (instanceSlug jobUid : String) (ids : List Nat) : Nat × Store :=
  let doomed (t : TransitionRow) : Bool :=
    t.instanceSlug = instanceSlug && t.jobUid = jobUid && ids.contains t.id
  ((s.transitions.filter doomed).length,
    { s with transitions := s.transitions.filter fun t => !doomed t })

/-- `DELETE FROM jobs` of the one row. -/
def deleteJobRow (job : JobRow) : Nat × Store :=
  let doomed (j : JobRow) : Bool :=
    j.id = job.id && j.instanceSlug = job.instanceSlug && j.jobUid = job.jobUid
  ((s.jobs.filter doomed).length, { s with jobs := s.jobs.filter fun j => !doomed j })

/-- What is left of `delete_job_with_ancestry` once the events are gone: the
    transitions, and the job itself when nothing of it was left out. -/
def deleteJobRows (job : JobRow) (transitionIds eventIds : List Nat) (events : Nat) :
    PruneCounts × Store :=
  if eventIds.length > maxPruneBatchSize then (⟨events, 0, 0⟩, s)
  else
    let transitions :=
      deleteTransitionRowsByIds s job.instanceSlug job.jobUid (transitionIds.take maxPruneBatchSize)
    if transitionIds.length > maxPruneBatchSize then (⟨events, 0, transitions.1⟩, transitions.2)
    else
      let jobs := deleteJobRow transitions.2 job
      (⟨events, jobs.1, transitions.1⟩, jobs.2)

/-- `delete_job_with_ancestry`. -/
def deleteJobWithAncestry (id : Nat) : Except StoreError (PruneCounts × Store) :=
  match s.jobs.find? fun j => j.id = id with
  | none => .ok (.zero, s)
  | some job =>
    if reconciliationOpen s job.instanceSlug then .ok (.zero, s)
    else do
      let transitionIds := selectTransitionIds s job.instanceSlug job.jobUid (maxPruneBatchSize + 1)
      let eventIds := selectTransitionEventIds s job.instanceSlug
        (transitionIds.take maxPruneBatchSize) (maxPruneBatchSize + 1)
      let deleted ← deleteEventsForInstanceByIds s job.instanceSlug
        (eventIds.take maxPruneBatchSize)
      pure (deleteJobRows deleted.2 job transitionIds eventIds deleted.1)

/-! ## Batches -/

/-- The phases of a prune pass; byte pressure with the measured sizes. -/
inductive PruneBatch where
  | expiredEvents
  | eventRows
  | terminalJobAge
  | terminalJobRows
  | bytePressure (databaseBytes walBytes : Nat)

/-- Delete the chosen events while the lease is held. -/
def pruneEvents (s : Store) (leaseHeld : Bool) (ids : List Nat) :
    Except StoreError (PruneCounts × Store) := do
  refuseIf (!leaseHeld) leaseLost
  let deleted ← deleteEventsByIds s ids
  pure (⟨deleted.1, 0, 0⟩, deleted.2)

/-- Delete the chosen job, if any, while the lease is held. -/
def pruneJob (s : Store) (leaseHeld : Bool) (id : Option Nat) :
    Except StoreError (PruneCounts × Store) :=
  match id with
  | none => .ok (.zero, s)
  | some id => do
    refuseIf (!leaseHeld) leaseLost
    deleteJobWithAncestry s id

/-- `prune_expired_event_batch`. -/
def pruneExpiredEventBatch (julianday : Timestamp → Int) (budget : RetentionBudget)
    (now : Timestamp) (leaseHeld : Bool) (s : Store) : Except StoreError (PruneCounts × Store) :=
  match budget.maxEventAge with
  | none => .ok (.zero, s)
  | some age =>
    pruneEvents s leaseHeld
      (selectExpiredEventIds julianday s (minusAge now age) (pruneBatchSize budget))

/-- `prune_event_row_batch`. -/
def pruneEventRowBatch (budget : RetentionBudget) (leaseHeld : Bool) (s : Store) :
    Except StoreError (PruneCounts × Store) := do
  let start ← newestWindowStart (s.events.rows.map Numbered.id) budget.maxEventRows
  match start.filter fun id => id > 1 with
  | none => .ok (.zero, s)
  | some keepFromId =>
    pruneEvents s leaseHeld (protectedIdsBelow s keepFromId (pruneBatchSize budget))

/-- `prune_terminal_job_age_batch`. -/
def pruneTerminalJobAgeBatch (julianday : Timestamp → Int) (budget : RetentionBudget)
    (now : Timestamp) (leaseHeld : Bool) (s : Store) : Except StoreError (PruneCounts × Store) :=
  match budget.maxTerminalJobAge with
  | none => .ok (.zero, s)
  | some age =>
    pruneJob s leaseHeld
      (selectExpiredTerminalJobIds julianday s (minusAge now age) (pruneBatchSize budget)).head?

/-- `prune_terminal_job_row_batch`. -/
def pruneTerminalJobRowBatch (budget : RetentionBudget) (leaseHeld : Bool) (s : Store) :
    Except StoreError (PruneCounts × Store) := do
  let terminal := s.jobs.filter fun j => canonicalTerminalPhases.contains j.phase
  let start ← newestWindowStart (terminal.map JobRow.id) budget.maxTerminalJobRows
  match start.filter fun id => id > 1 with
  | none => .ok (.zero, s)
  | some keepFromId =>
    pruneJob s leaseHeld
      ((s.jobs.filter fun j => j.id < keepFromId && terminalJob s j).head?.map JobRow.id)

/-- `prune_byte_pressure_batch`: the oldest finished job, or the oldest events
    when there is none. -/
def pruneBytePressureBatch (databaseBytes walBytes : Nat) (budget : RetentionBudget)
    (leaseHeld : Bool) (s : Store) : Except StoreError (PruneCounts × Store) :=
  if min (databaseBytes + walBytes) (2 ^ 64 - 1) ≤ budget.maxDatabaseBytes then .ok (.zero, s)
  else
    match (s.jobs.filter (terminalJob s)).head? with
    | some job => pruneJob s leaseHeld (some job.id)
    | none => pruneEvents s leaseHeld (protectedIdsBelow s maxRowId (pruneBatchSize budget))

/-- One batch of a prune pass.  The pass leaves out a phase whose cap is zero. -/
def pruneBatch (julianday : Timestamp → Int) (batch : PruneBatch) (budget : RetentionBudget)
    (now : Timestamp) (leaseHeld : Bool) (s : Store) : Except StoreError (PruneCounts × Store) :=
  match batch with
  | .expiredEvents => pruneExpiredEventBatch julianday budget now leaseHeld s
  | .eventRows =>
    if budget.maxEventRows > 0 then pruneEventRowBatch budget leaseHeld s else .ok (.zero, s)
  | .terminalJobAge => pruneTerminalJobAgeBatch julianday budget now leaseHeld s
  | .terminalJobRows =>
    if budget.maxTerminalJobRows > 0 then pruneTerminalJobRowBatch budget leaseHeld s
    else .ok (.zero, s)
  | .bytePressure databaseBytes walBytes =>
    if budget.maxDatabaseBytes > 0 then
      pruneBytePressureBatch databaseBytes walBytes budget leaseHeld s
    else .ok (.zero, s)

/-! ## What a batch does to the stream -/

/-- The summary row after a refresh over `events`. -/
def Refreshed (events : Sequenced EventRecord) (slug : String)
    (before after : Option StreamState) : Prop :=
  match before with
  | none => after = none
  | some old => ∃ new, after = some new ∧
      new.firstRetainedId = (events.minId (ofInstance slug)).getD (old.highWaterId + 1) ∧
      new.highWaterId = max old.highWaterId ((events.maxId (ofInstance slug)).getD 0)

/-- Some events are gone, and an instance whose summary row was not refreshed
    lost none. -/
structure Shrinks (s s' : Store) : Prop where
  last : s'.events.last = s.events.last
  rows : s'.events.rows.Sublist s.events.rows
  streams : ∀ slug, Refreshed s'.events slug (s.streams slug) (s'.streams slug) ∨
    s'.streams slug = s.streams slug ∧
      s'.events.selectWhere (ofInstance slug) = s.events.selectWhere (ofInstance slug)

theorem Shrinks.refl (s : Store) : Shrinks s s :=
  ⟨rfl, List.Sublist.refl _, fun _ => .inr ⟨rfl, rfl⟩⟩

variable {s julianday} {s' : Store} {count : Nat} {ids : List Nat} {counts : PruneCounts}
  {leaseHeld : Bool} {budget : RetentionBudget} {now : Timestamp}

/-- Writes to the other tables do not show. -/
theorem Shrinks.congr {s'' : Store} (h : Shrinks s s') (he : s''.events = s'.events)
    (hs : s''.streams = s'.streams) : Shrinks s s'' :=
  ⟨by rw [he]; exact h.last, by rw [he]; exact h.rows, by rw [he, hs]; exact h.streams⟩

variable {slug : String} {instances : List String}

theorem refreshEventStreamState_ok (h : refreshEventStreamState s slug = .ok s') :
    s'.events = s.events ∧ Refreshed s.events slug (s.streams slug) (s'.streams slug) ∧
      ∀ i, i ≠ slug → s'.streams i = s.streams i := by
  unfold refreshEventStreamState at h
  cases hs : s.streams slug with
  | none =>
    rw [hs] at h
    cases h
    exact ⟨rfl, hs, fun _ _ => rfl⟩
  | some =>
    rw [hs] at h
    obtain ⟨new, hnew, hret⟩ := bind_eq_ok.mp h
    cases hret
    have hfields := StreamState.checked?_ok hnew
    refine ⟨rfl, ⟨new, ?_, hfields.1, hfields.2⟩, ?_⟩
    · rw [Store.setStream_streams, if_pos rfl]
    · intro _ hi
      rw [Store.setStream_streams, if_neg hi]

/-- Refreshing a list of distinct instances refreshes each of them once. -/
theorem refreshAll_ok (hnodup : instances.Nodup)
    (h : instances.foldlM refreshEventStreamState s = .ok s') :
    s'.events = s.events ∧
      (∀ i ∈ instances, Refreshed s.events i (s.streams i) (s'.streams i)) ∧
      ∀ i, i ∉ instances → s'.streams i = s.streams i := by
  induction instances generalizing s with
  | nil =>
    cases h
    exact ⟨rfl, fun i hi => absurd hi not_mem_nil, fun _ _ => rfl⟩
  | cons slug _ ih =>
    obtain ⟨_, hmid, hrest⟩ := bind_eq_ok.mp h
    obtain ⟨hslug, hnodup⟩ := nodup_cons.mp hnodup
    obtain ⟨hevents, hrefreshed, hothers⟩ := refreshEventStreamState_ok hmid
    obtain ⟨hevents', hrefreshed', hothers'⟩ := ih hnodup hrest
    refine ⟨hevents'.trans hevents, ?_, ?_⟩
    · intro i hi
      rcases mem_cons.mp hi with rfl | hi
      · rw [hothers' i hslug]
        exact hrefreshed
      -- a later instance still has the row it started with
      have hne : i ≠ slug := fun heq => hslug (heq ▸ hi)
      have := hrefreshed' i hi
      rwa [hevents, hothers i hne] at this
    · intro i hi
      rw [mem_cons, not_or] at hi
      rw [hothers' i hi.2, hothers i hi.1]

theorem deleteEvents_shrinks {doomed : StoredEvent → Bool} (hnodup : instances.Nodup)
    (hcover : ∀ e ∈ s.events.rows, doomed e → e.row.instanceSlug ∈ instances)
    (h : deleteEvents s doomed instances = .ok (count, s')) : Shrinks s s' := by
  obtain ⟨_, hrefresh, hret⟩ := bind_eq_ok.mp h
  cases hret
  obtain ⟨hevents, hin, hout⟩ := refreshAll_ok hnodup hrefresh
  refine ⟨by rw [hevents]; rfl, by rw [hevents]; exact filter_sublist, fun slug => ?_⟩
  by_cases hslug : slug ∈ instances
  · left
    have := hin slug hslug
    rwa [hevents]
  · right
    refine ⟨hout slug hslug, ?_⟩
    -- no event of this instance was selected
    rw [hevents]
    refine (filter_filter ..).trans (filter_congr fun e he => ?_)
    by_cases hi : ofInstance slug e
    · have hkept : doomed e = false := by
        by_contra hdoomed
        rw [Bool.not_eq_false] at hdoomed
        have hmem := hcover e he hdoomed
        rw [show e.row.instanceSlug = slug from of_decide_eq_true hi] at hmem
        exact hslug hmem
      rw [hi, hkept]
      rfl
    · rw [Bool.not_eq_true] at hi
      rw [hi]
      rfl

theorem deleteEventsByIds_shrinks (h : deleteEventsByIds s ids = .ok (count, s')) :
    Shrinks s s' := by
  unfold deleteEventsByIds at h
  split at h
  · cases h
    exact .refl s
  refine deleteEvents_shrinks (nodup_dedup _) ?_ h
  intro e he hdoomed
  rw [mem_dedup]
  exact mem_map.mpr ⟨e, mem_filter.mpr ⟨he, hdoomed⟩, rfl⟩

theorem deleteEventsForInstanceByIds_shrinks
    (h : deleteEventsForInstanceByIds s slug ids = .ok (count, s')) : Shrinks s s' := by
  unfold deleteEventsForInstanceByIds at h
  split at h
  · cases h
    exact .refl s
  refine deleteEvents_shrinks (nodup_singleton slug) ?_ h
  intro _ _ hdoomed
  simp only [ofInstance, Bool.and_eq_true, decide_eq_true_eq] at hdoomed
  exact mem_singleton.mpr hdoomed.1.1

theorem deleteJobRows_stream (s : Store) (job : JobRow) (transitionIds eventIds : List Nat)
    (events : Nat) :
    (deleteJobRows s job transitionIds eventIds events).2.events = s.events ∧
      (deleteJobRows s job transitionIds eventIds events).2.streams = s.streams := by
  unfold deleteJobRows
  split
  · exact ⟨rfl, rfl⟩
  · dsimp only
    split <;> exact ⟨rfl, rfl⟩

theorem deleteJobWithAncestry_shrinks {id : Nat} (h : deleteJobWithAncestry s id = .ok (counts, s'))
    : Shrinks s s' := by
  unfold deleteJobWithAncestry at h
  split at h
  · cases h
    exact .refl s
  split at h
  · cases h
    exact .refl s
  obtain ⟨deleted, hdeleted, hret⟩ := bind_eq_ok.mp h
  have hrest := deleteJobRows_stream deleted.2
  rw [pure_eq_ok] at hret
  obtain rfl : s' = _ := congrArg Prod.snd hret
  exact (deleteEventsForInstanceByIds_shrinks hdeleted).congr (hrest _ _ _ _).1 (hrest _ _ _ _).2

theorem pruneEvents_shrinks (h : pruneEvents s leaseHeld ids = .ok (counts, s')) :
    Shrinks s s' := by
  obtain ⟨_, _, h⟩ := bind_eq_ok.mp h
  obtain ⟨_, hdeleted, hret⟩ := bind_eq_ok.mp h
  cases hret
  exact deleteEventsByIds_shrinks hdeleted

theorem pruneJob_shrinks {id : Option Nat} (h : pruneJob s leaseHeld id = .ok (counts, s')) :
    Shrinks s s' := by
  cases id with
  | none =>
    cases h
    exact .refl s
  | some =>
    obtain ⟨_, _, h⟩ := bind_eq_ok.mp h
    exact deleteJobWithAncestry_shrinks h

/-- A batch with nothing to do. -/
theorem idle_shrinks
    (h : (.ok (.zero, s) : Except StoreError (PruneCounts × Store)) = .ok (counts, s')) :
    Shrinks s s' := by
  cases h
  exact .refl s

theorem pruneExpiredEventBatch_shrinks
    (h : pruneExpiredEventBatch julianday budget now leaseHeld s = .ok (counts, s')) :
    Shrinks s s' := by
  unfold pruneExpiredEventBatch at h
  split at h
  · exact idle_shrinks h
  · exact pruneEvents_shrinks h

theorem pruneEventRowBatch_shrinks (h : pruneEventRowBatch budget leaseHeld s = .ok (counts, s')) :
    Shrinks s s' := by
  obtain ⟨_, _, h⟩ := bind_eq_ok.mp h
  split at h
  · exact idle_shrinks h
  · exact pruneEvents_shrinks h

theorem pruneTerminalJobAgeBatch_shrinks
    (h : pruneTerminalJobAgeBatch julianday budget now leaseHeld s = .ok (counts, s')) :
    Shrinks s s' := by
  unfold pruneTerminalJobAgeBatch at h
  split at h
  · exact idle_shrinks h
  · exact pruneJob_shrinks h

theorem pruneTerminalJobRowBatch_shrinks
    (h : pruneTerminalJobRowBatch budget leaseHeld s = .ok (counts, s')) : Shrinks s s' := by
  obtain ⟨_, _, h⟩ := bind_eq_ok.mp h
  split at h
  · exact idle_shrinks h
  · exact pruneJob_shrinks h

theorem pruneBytePressureBatch_shrinks {databaseBytes walBytes : Nat}
    (h : pruneBytePressureBatch databaseBytes walBytes budget leaseHeld s = .ok (counts, s')) :
    Shrinks s s' := by
  unfold pruneBytePressureBatch at h
  split at h
  · exact idle_shrinks h
  · split at h
    · exact pruneJob_shrinks h
    · exact pruneEvents_shrinks h

/-- Every batch only shrinks the stream. -/
theorem pruneBatch_shrinks {batch : PruneBatch}
    (h : pruneBatch julianday batch budget now leaseHeld s = .ok (counts, s')) : Shrinks s s' := by
  cases batch with
  | expiredEvents => exact pruneExpiredEventBatch_shrinks h
  | eventRows =>
    simp only [pruneBatch] at h
    split at h
    · exact pruneEventRowBatch_shrinks h
    · exact idle_shrinks h
  | terminalJobAge => exact pruneTerminalJobAgeBatch_shrinks h
  | terminalJobRows =>
    simp only [pruneBatch] at h
    split at h
    · exact pruneTerminalJobRowBatch_shrinks h
    · exact idle_shrinks h
  | bytePressure =>
    simp only [pruneBatch] at h
    split at h
    · exact pruneBytePressureBatch_shrinks h
    · exact idle_shrinks h

end Velnor.Control.EventStream
