/-
  What the event cursor tells a consumer over whole runs: appends for any
  instances, prune batches, and writes of the other operations to the tables
  that retention consults.

  A history keeps every event ever published next to the database.  `Tracks`
  ties the two: the retained rows are a sublist of what was published, and the
  summary row of an instance is that of its stream (the newest published id,
  and the oldest retained id).  From it `watch` has a closed form, and the
  cursor test, which compares the cursor with the oldest retained id, can be
  compared with what was really lost.
-/
import Velnor.Control.EventStream.Retention

namespace Velnor.Control.EventStream

open Relational List Nat

/-! ## Histories -/

/-- The database and every event that was ever published into it. -/
structure History where
  store : Store
  published : List StoredEvent

/-- One transaction of a run. -/
inductive Action where
  | append (row : EventRow) (transitionId reconciliationId : Option Nat)
  | prune (batch : PruneBatch) (budget : RetentionBudget) (now : Timestamp) (leaseHeld : Bool)
  | writeJobs (rows : List JobRow)
  | writeTransitions (rows : List TransitionRow)
  | writeReconciliations (rows : List ReconciliationRow)

/-- The published event that an append adds. -/
def appended (s : Store) (row : EventRow) (transitionId reconciliationId : Option Nat) :
    StoredEvent :=
  ⟨s.events.last + 1, ⟨row, transitionId, reconciliationId⟩⟩

section Runs

variable (validateEventRow : EventRow → Except StoreError Unit) (julianday : Timestamp → Int)

/-- One step of a run.  A transaction that fails is rolled back. -/
def History.step (h : History) : Action → History
  | .append row transitionId reconciliationId =>
    match appendEventWithAncestry validateEventRow row transitionId reconciliationId h.store with
    | .ok result =>
      ⟨result.2, h.published ++ [appended h.store row transitionId reconciliationId]⟩
    | .error _ => h
  | .prune batch budget now leaseHeld =>
    match pruneBatch julianday batch budget now leaseHeld h.store with
    | .ok result => ⟨result.2, h.published⟩
    | .error _ => h
  | .writeJobs rows => ⟨{ h.store with jobs := rows }, h.published⟩
  | .writeTransitions rows => ⟨{ h.store with transitions := rows }, h.published⟩
  | .writeReconciliations rows => ⟨{ h.store with reconciliations := rows }, h.published⟩

/-- The history of a run on a fresh database. -/
def History.run (actions : List Action) : History :=
  actions.foldl (History.step validateEventRow julianday) ⟨.fresh, []⟩

end Runs

variable (h : History) (slug : String)

/-- The events of the instance that were ever published. -/
def History.publishedOf : List StoredEvent := h.published.filter (ofInstance slug)

/-- The events of the instance that are still there. -/
def History.retainedOf : List StoredEvent := h.store.events.selectWhere (ofInstance slug)

/-- The events of the instance that were deleted. -/
def History.deletedOf : List StoredEvent :=
  (h.publishedOf slug).filter fun e => !h.store.events.rows.contains e

/-! ## The summary row -/

/-- The summary row of a stream with the given published and retained events. -/
def Summarizes (published retained : List StoredEvent) (stream : Option StreamState) : Prop :=
  match published.getLast? with
  | none => stream = none
  | some newest => ∃ state, stream = some state ∧ state.highWaterId = newest.id ∧
      state.firstRetainedId = (retained.head?.map Numbered.id).getD (newest.id + 1)

/-- What every run keeps true of its history. -/
structure Tracks (validateEventRow : EventRow → Except StoreError Unit) (h : History) : Prop where
  kept : h.store.events.rows.Sublist h.published
  sorted : InIdOrder h.published
  positive : ∀ e ∈ h.published, 0 < e.id
  bounded : ∀ e ∈ h.published, e.id ≤ h.store.events.last
  capacity : h.store.events.last ≤ maxRowId
  valid : ∀ e ∈ h.published, validateEventRow e.row.toEventRow = .ok ()
  streams : ∀ slug, Summarizes (h.publishedOf slug) (h.retainedOf slug) (h.store.streams slug)

section Facts

variable {h slug} {validateEventRow : EventRow → Except StoreError Unit}
  {julianday : Timestamp → Int}

section

variable (t : Tracks validateEventRow h) (slug : String)
include t

theorem Tracks.retained_sublist : (h.retainedOf slug).Sublist (h.publishedOf slug) :=
  t.kept.filter _

theorem Tracks.publishedOf_sorted : InIdOrder (h.publishedOf slug) :=
  t.sorted.sublist filter_sublist

theorem Tracks.retainedOf_sorted : InIdOrder (h.retainedOf slug) :=
  (t.publishedOf_sorted slug).sublist (t.retained_sublist slug)

theorem Tracks.deletedOf_sorted : InIdOrder (h.deletedOf slug) :=
  (t.publishedOf_sorted slug).sublist filter_sublist

end

variable {e : StoredEvent}

theorem mem_deletedOf :
    e ∈ h.deletedOf slug ↔ e ∈ h.publishedOf slug ∧ e ∉ h.store.events.rows := by
  unfold History.deletedOf
  rw [mem_filter, Bool.not_eq_true', contains_eq_mem, decide_eq_false_iff_not]

theorem mem_retainedOf :
    e ∈ h.retainedOf slug ↔ e ∈ h.store.events.rows ∧ e.row.instanceSlug = slug := by
  unfold History.retainedOf Sequenced.selectWhere
  rw [mem_filter, ofInstance, decide_eq_true_eq]

theorem mem_publishedOf : e ∈ h.publishedOf slug ↔ e ∈ h.published ∧ e.row.instanceSlug = slug := by
  unfold History.publishedOf
  rw [mem_filter, ofInstance, decide_eq_true_eq]

/-- A published event of the instance is retained or deleted. -/
theorem retained_or_deleted (he : e ∈ h.publishedOf slug) :
    e ∈ h.retainedOf slug ∨ e ∈ h.deletedOf slug := by
  by_cases hrow : e ∈ h.store.events.rows
  · exact .inl (mem_retainedOf.mpr ⟨hrow, (mem_publishedOf.mp he).2⟩)
  · exact .inr (mem_deletedOf.mpr ⟨he, hrow⟩)

/-! ## One step keeps the summary -/

theorem tracks_fresh : Tracks validateEventRow ⟨.fresh, []⟩ where
  kept := List.Sublist.refl _
  sorted := List.Pairwise.nil
  positive := fun _ h => absurd h not_mem_nil
  bounded := fun _ h => absurd h not_mem_nil
  capacity := zero_le _
  valid := fun _ h => absurd h not_mem_nil
  streams := fun _ => rfl

variable {row : EventRow} {result : Nat × Store} {transitionId reconciliationId : Option Nat}

/-- A successful append, taken apart. -/
theorem appendEventWithAncestry_ok {s : Store}
    (ha : appendEventWithAncestry validateEventRow row transitionId reconciliationId s =
      .ok result) :
    validateEventRow row = .ok () ∧ s.events.last < maxRowId ∧
      ∃ state, extendStream (s.streams row.instanceSlug) (s.events.last + 1) = .ok state ∧
        result.2 = ({ s with events := s.events.insert ⟨row, transitionId, reconciliationId⟩ } :
          Store).setStream row.instanceSlug state := by
  obtain ⟨_, hvalid, ha⟩ := bind_eq_ok.mp ha
  obtain ⟨_, _, ha⟩ := bind_eq_ok.mp ha
  obtain ⟨_, hfull, ha⟩ := bind_eq_ok.mp ha
  obtain ⟨state, hstate, ha⟩ := bind_eq_ok.mp ha
  rw [pure_eq_ok] at ha
  rw [refuseIf_eq_ok] at hfull
  exact ⟨hvalid, lt_of_not_ge hfull, state, hstate, congrArg Prod.snd ha⟩

/-- The event that extends a stream becomes its newest, and its oldest retained
    one when nothing older is left. -/
theorem summarizes_extend {published retained : List StoredEvent} {stream : Option StreamState}
    {state : StreamState} (hsum : Summarizes published retained stream)
    (hkept : retained.Sublist published) (hsorted : InIdOrder published)
    (hstate : extendStream stream e.id = .ok state) :
    Summarizes (published ++ [e]) (retained ++ [e]) (some state) := by
  unfold Summarizes at hsum ⊢
  rw [getLast?_concat]
  cases hlast : published.getLast? with
  | none =>
    -- the first event of the instance
    rw [hlast] at hsum
    rw [hsum] at hstate
    rw [getLast?_eq_none_iff] at hlast
    rw [hlast] at hkept
    rw [sublist_nil.mp hkept]
    obtain ⟨hfirst, hhigh⟩ := StreamState.checked?_ok hstate
    exact ⟨state, rfl, hhigh, hfirst⟩
  | some newest =>
    rw [hlast] at hsum
    obtain ⟨old, rfl, _, holdFirst⟩ := hsum
    obtain ⟨hfirst, hhigh⟩ := StreamState.checked?_ok hstate
    refine ⟨state, rfl, hhigh, ?_⟩
    rw [hfirst]
    cases retained with
    | nil =>
      have hempty : old.firstRetainedId = newest.id + 1 := holdFirst
      exact if_pos (by omega)
    | cons r =>
      have hhead : old.firstRetainedId = r.id := holdFirst
      have hle : r.id ≤ newest.id := id_le_getLast hsorted hlast (hkept.subset mem_cons_self)
      rw [if_neg (by omega)]
      exact hhead

theorem Tracks.append (t : Tracks validateEventRow h)
    (ha : appendEventWithAncestry validateEventRow row transitionId reconciliationId h.store =
      .ok result) :
    Tracks validateEventRow
      ⟨result.2, h.published ++ [appended h.store row transitionId reconciliationId]⟩ := by
  obtain ⟨hvalid, hroom, _, hstate, hstore⟩ := appendEventWithAncestry_ok ha
  obtain ⟨_, _⟩ := result
  subst hstore
  refine ⟨t.kept.append_right _, ?_, ?_, ?_, hroom, ?_, fun slug => ?_⟩
  · refine pairwise_append.mpr ⟨t.sorted, pairwise_singleton _ _, ?_⟩
    intro a ha _ hb
    rw [mem_singleton.mp hb]
    exact lt_succ_of_le (t.bounded a ha)
  · exact forall_mem_append.mpr ⟨t.positive, forall_mem_singleton.mpr (succ_pos _)⟩
  · refine forall_mem_append.mpr ⟨fun e he => ?_, forall_mem_singleton.mpr (le_refl _)⟩
    exact le_succ_of_le (t.bounded e he)
  · exact forall_mem_append.mpr ⟨t.valid, forall_mem_singleton.mpr hvalid⟩
  · unfold History.publishedOf History.retainedOf Sequenced.selectWhere
    rw [Store.setStream_events, Store.setStream_streams]
    rw [show (h.store.events.insert ⟨row, transitionId, reconciliationId⟩).rows =
      h.store.events.rows ++ [appended h.store row transitionId reconciliationId] from rfl]
    rw [filter_append, filter_append]
    by_cases hslug : slug = row.instanceSlug
    · have hof : ofInstance slug (appended h.store row transitionId reconciliationId) = true :=
        decide_eq_true hslug.symm
      rw [if_pos hslug, filter_cons_of_pos hof]
      rw [← hslug] at hstate
      exact summarizes_extend (t.streams slug) (t.retained_sublist slug)
        (t.publishedOf_sorted slug) hstate
    · have hof : ¬ ofInstance slug (appended h.store row transitionId reconciliationId) = true := by
        intro hof
        exact hslug (of_decide_eq_true hof).symm
      rw [if_neg hslug, filter_cons_of_neg hof, filter_nil, append_nil, append_nil]
      exact t.streams slug

/-- A refreshed summary row summarizes what the batch left. -/
theorem summarizes_refresh {published : List StoredEvent} {events : Sequenced EventRecord}
    {retained : List StoredEvent} {before after : Option StreamState}
    (hsum : Summarizes published retained before) (hrefreshed : Refreshed events slug before after)
    (hkept : (events.selectWhere (ofInstance slug)).Sublist published)
    (hsorted : InIdOrder published) :
    Summarizes published (events.selectWhere (ofInstance slug)) after := by
  unfold Summarizes at hsum ⊢
  cases hlast : published.getLast? with
  | none =>
    rw [hlast] at hsum
    rw [hsum] at hrefreshed
    exact hrefreshed
  | some newest =>
    rw [hlast] at hsum
    obtain ⟨_, rfl, hold, _⟩ := hsum
    obtain ⟨new, rfl, hfirst, hhigh⟩ := hrefreshed
    refine ⟨new, rfl, ?_, ?_⟩
    · -- no retained event is newer than the newest published one
      have hmax : (events.maxId (ofInstance slug)).getD 0 ≤ newest.id := by
        unfold Sequenced.maxId
        cases hretained : (events.selectWhere (ofInstance slug)).getLast? with
        | none => exact zero_le _
        | some => exact id_le_getLast hsorted hlast (hkept.subset (mem_of_getLast? hretained))
      rw [hhigh, hold]
      exact max_eq_left hmax
    · rw [hfirst, hold]
      rfl

theorem Tracks.shrink {s' : Store} (t : Tracks validateEventRow h) (hs : Shrinks h.store s') :
    Tracks validateEventRow ⟨s', h.published⟩ where
  kept := hs.rows.trans t.kept
  sorted := t.sorted
  positive := t.positive
  bounded := by
    intro e he
    rw [hs.last]
    exact t.bounded e he
  capacity := hs.last.le.trans t.capacity
  valid := t.valid
  streams := by
    intro slug
    have hkept : (s'.events.selectWhere (ofInstance slug)).Sublist (h.publishedOf slug) :=
      (hs.rows.trans t.kept).filter _
    rcases hs.streams slug with hrefreshed | ⟨hstream, hselect⟩
    · exact summarizes_refresh (t.streams slug) hrefreshed hkept (t.publishedOf_sorted slug)
    have := t.streams slug
    unfold History.retainedOf at ⊢
    rw [hstream, hselect]
    exact this

theorem Tracks.step (t : Tracks validateEventRow h) (action : Action) :
    Tracks validateEventRow (h.step validateEventRow julianday action) := by
  cases action with
  | append =>
    unfold History.step
    dsimp only
    split
    · next ha => exact t.append ha
    · exact t
  | prune =>
    unfold History.step
    dsimp only
    split
    · next hp => exact t.shrink (pruneBatch_shrinks hp)
    · exact t
  | writeJobs | writeTransitions | writeReconciliations => exact { t with }

/-- Every run keeps the summary rows. -/
theorem tracks_run (actions : List Action) :
    Tracks validateEventRow (History.run validateEventRow julianday actions) := by
  have hall : ∀ (actions : List Action) (h : History), Tracks validateEventRow h →
      Tracks validateEventRow (actions.foldl (History.step validateEventRow julianday) h) := by
    intro actions
    induction actions with
    | nil => exact fun _ t => t
    | cons action _ ih => exact fun h t => ih _ (t.step action)
  exact hall actions _ tracks_fresh

/-- However a run goes on, a deleted event does not come back and no id is handed
    out twice: up to the last id there are only rows that were there before,
    unchanged and in their order. -/
theorem deleted_events_stay_deleted (before after : List Action) :
    ((History.run validateEventRow julianday (before ++ after)).store.events.rows.filter fun e =>
        e.id ≤ (History.run validateEventRow julianday before).store.events.last).Sublist
      (History.run validateEventRow julianday before).store.events.rows := by
  unfold History.run
  rw [foldl_append]
  generalize before.foldl (History.step validateEventRow julianday) ⟨.fresh, []⟩ = h
  refine (foldlRecOn (motive := fun later : History =>
    h.store.events.last ≤ later.store.events.last ∧ (later.store.events.rows.filter fun e =>
      e.id ≤ h.store.events.last).Sublist h.store.events.rows)
    after _ ⟨le_rfl, filter_sublist⟩ fun later hlater action _ => ?_).2
  cases action with
  | append =>
    dsimp only [History.step]
    split
    · next ha =>
      -- the new row has the id after the last one
      obtain ⟨_, _, _, _, hstore⟩ := appendEventWithAncestry_ok ha
      rw [hstore]
      refine ⟨le_succ_of_le hlater.1, ?_⟩
      show (filter _ (later.store.events.rows ++ [_])).Sublist _
      rw [filter_append, filter_cons_of_neg (by simpa using lt_succ_of_le hlater.1), filter_nil,
        append_nil]
      exact hlater.2
    · exact hlater
  | prune =>
    dsimp only [History.step]
    split
    · next hp =>
      have hs := pruneBatch_shrinks hp
      exact ⟨hs.last ▸ hlater.1, (hs.rows.filter _).trans hlater.2⟩
    · exact hlater
  | writeJobs | writeTransitions | writeReconciliations => exact hlater

end Facts

/-! ## What `watch` answers -/

/-- The last id the stream reached, zero before its first event. -/
def History.newestId (h : History) (slug : String) : Nat :=
  ((h.publishedOf slug).getLast?.map Numbered.id).getD 0

/-- The oldest retained id, or the id after the newest one when all are gone. -/
def History.oldestId (h : History) (slug : String) : Nat :=
  ((h.retainedOf slug).head?.map Numbered.id).getD (h.newestId slug + 1)

/-- An unfiltered watch from a cursor. -/
def cursorRequest (cursor limit : Nat) : WatchRequest := ⟨none, some cursor, limit⟩

/-- Some event of the instance above the cursor was deleted. -/
def History.LostAfter (h : History) (slug : String) (cursor : Nat) : Prop :=
  ∃ e ∈ h.deletedOf slug, cursor < e.id

/-- The next retained events of the instance above the cursor. -/
def History.nextAfter (h : History) (slug : String) (cursor limit : Nat) : List StoredEvent :=
  ((h.retainedOf slug).filter fun e => cursor < e.id).take limit

section Answers

variable {h slug} {validateEventRow : EventRow → Except StoreError Unit} {cursor limit : Nat}

theorem mapM_decode {l : List StoredEvent}
    (hvalid : ∀ e ∈ l, validateEventRow e.row.toEventRow = .ok ()) :
    l.mapM (decodeStoredEvent validateEventRow) = .ok l := by
  induction l with
  | nil => rfl
  | cons e _ ih =>
    have he : decodeStoredEvent validateEventRow e = .ok e := by
      unfold decodeStoredEvent
      rw [hvalid e mem_cons_self]
    rw [mapM_cons, he, ih fun f hf => hvalid f (mem_cons_of_mem _ hf)]
    rfl

section

variable (t : Tracks validateEventRow h)
include t

/-- A stream that some cursor is not ahead of has its summary row. -/
theorem Tracks.summary (hpos : 0 < h.newestId slug) :
    ∃ state, h.store.streams slug = some state ∧ state.highWaterId = h.newestId slug ∧
      state.firstRetainedId = h.oldestId slug := by
  have hsum := t.streams slug
  unfold Summarizes at hsum
  unfold History.oldestId
  unfold History.newestId at hpos ⊢
  cases hlast : (h.publishedOf slug).getLast? with
  | none =>
    rw [hlast] at hpos
    exact absurd hpos (lt_irrefl 0)
  | some =>
    rw [hlast] at hsum
    exact hsum

theorem Tracks.newestId_le (slug : String) : h.newestId slug ≤ maxRowId := by
  unfold History.newestId
  cases hlast : (h.publishedOf slug).getLast? with
  | none => exact zero_le _
  | some newest =>
    have hmem := (mem_publishedOf.mp (mem_of_getLast? hlast)).1
    exact (t.bounded newest hmem).trans t.capacity

/-- The stored events above the cursor are read back whole. -/
theorem Tracks.eventWindow (hcursor : cursor ≤ maxRowId) (hpos : 0 < limit)
    (hlimit : limit ≤ maxBuffer) {state : StreamState} (hstate : h.store.streams slug = some state)
    (hhigh : 0 < state.highWaterId) :
    eventWindow validateEventRow h.store slug cursor none limit =
      .ok ⟨some state.firstRetainedId, some state.highWaterId, h.nextAfter slug cursor limit⟩ := by
  have hselect : (h.store.events.selectWhere fun e =>
      ofInstance slug e && true && decide (cursor < e.id)).take limit =
        h.nextAfter slug cursor limit := by
    unfold History.nextAfter History.retainedOf Sequenced.selectWhere
    rw [filter_filter]
    refine congrArg (take limit) (filter_congr fun e _ => ?_)
    rw [Bool.and_true, Bool.and_comm]
  have hdecode : (h.nextAfter slug cursor limit).mapM (decodeStoredEvent validateEventRow) =
      .ok (h.nextAfter slug cursor limit) := by
    refine mapM_decode fun e he => t.valid e ?_
    have hretained := mem_of_mem_filter (mem_of_mem_take he)
    exact t.kept.subset (mem_retainedOf.mp hretained).1
  unfold EventStream.eventWindow
  rw [refuseIf_pass (by omega), refuseIf_pass (by omega)]
  simp only [hselect, hdecode, hstate, Option.map_some, Option.getD_some]
  rw [if_pos hhigh, if_pos hhigh]
  rfl

/-- `watch` in closed form, for a cursor that is not ahead of the stream. -/
theorem Tracks.watch (hcursor : 0 < cursor) (hle : cursor ≤ h.newestId slug) (hpos : 0 < limit)
    (hlimit : limit ≤ maxBuffer) :
    watch validateEventRow h.store slug (cursorRequest cursor limit) =
      if cursor + 1 < h.oldestId slug then .error cursorExpired
      else .ok ((h.nextAfter slug cursor limit).map watchItem) := by
  obtain ⟨state, hstate, hhigh, hfirst⟩ := t.summary (lt_of_lt_of_le hcursor hle)
  have hwindow := t.eventWindow (hle.trans (t.newestId_le slug)) hpos hlimit hstate (by omega)
  have hbound := hle.trans (t.newestId_le slug)
  have hnext : saturatingAdd cursor 1 = cursor + 1 := by
    unfold saturatingAdd
    unfold maxRowId at hbound
    omega
  have hstop : ((some state.firstRetainedId).any fun first =>
      decide (cursor ≠ 0) && decide (saturatingAdd cursor 1 < first)) = true ↔
        cursor + 1 < h.oldestId slug := by
    simp only [Option.any_some, hnext, hfirst, Bool.and_eq_true, decide_eq_true_eq]
    exact and_iff_right (by omega)
  have hahead : ¬ ((some state.highWaterId).any fun last => cursor > last) = true := by
    simp only [Option.any_some, decide_eq_true_eq]
    omega
  unfold EventStream.watch cursorRequest
  dsimp only
  rw [refuseIf_pass (by omega), ok_bind, Option.getD_some, hwindow, Except.mapError, ok_bind]
  by_cases hexpired : cursor + 1 < h.oldestId slug
  · rw [if_pos hexpired, refuseIf_stop (hstop.mpr hexpired)]
    rfl
  · rw [if_neg hexpired, refuseIf_pass (mt hstop.mp hexpired), refuseIf_pass hahead]
    rfl

end

end Answers

/-! ## Exactness of the cursor -/

/-- The answer a consumer relies on: the conflict exactly when history above the
    cursor is gone, and otherwise the next retained events. -/
def ExactAt (validateEventRow : EventRow → Except StoreError Unit) (h : History) (slug : String)
    (cursor limit : Nat) : Prop :=
  (watch validateEventRow h.store slug (cursorRequest cursor limit) = .error cursorExpired ↔
      h.LostAfter slug cursor) ∧
    (¬ h.LostAfter slug cursor →
      watch validateEventRow h.store slug (cursorRequest cursor limit) =
        .ok ((h.nextAfter slug cursor limit).map watchItem))

/-- The instance lost a run of its oldest events and nothing else, and its
    oldest retained event has the id after the newest lost one: no event was
    protected among lost ones, and no other instance's event lies in the cut.
    Where nothing was lost, the stream starts at one of the first two ids. -/
def CleanCut (h : History) (slug : String) : Prop :=
  (∀ d ∈ h.deletedOf slug, ∀ r ∈ h.retainedOf slug, d.id < r.id) ∧
    ∀ r, (h.retainedOf slug).head? = some r →
      match (h.deletedOf slug).getLast? with
      | none => r.id ≤ 2
      | some d => r.id = d.id + 1

section Exactness

variable {h slug} {validateEventRow : EventRow → Except StoreError Unit} {cursor limit : Nat}
  {e : StoredEvent}

theorem oldestId_of_head {r : StoredEvent} (hr : (h.retainedOf slug).head? = some r) :
    h.oldestId slug = r.id := by
  unfold History.oldestId
  rw [hr]
  rfl

theorem deletedOf_subset (he : e ∈ h.deletedOf slug) : e ∈ h.publishedOf slug :=
  (mem_deletedOf.mp he).1

theorem not_lostAfter (hd : (h.deletedOf slug).getLast? = none) : ¬ h.LostAfter slug cursor := by
  rintro ⟨_, he, _⟩
  rw [getLast?_eq_none_iff.mp hd] at he
  cases he

variable (t : Tracks validateEventRow h)
include t

/-- Exactness is agreement of the cursor test with what was lost. -/
theorem Tracks.exactAt_iff (hcursor : 0 < cursor)
    (hle : cursor ≤ h.newestId slug) (hpos : 0 < limit) (hlimit : limit ≤ maxBuffer) :
    ExactAt validateEventRow h slug cursor limit ↔
      (cursor + 1 < h.oldestId slug ↔ h.LostAfter slug cursor) := by
  unfold ExactAt
  rw [t.watch hcursor hle hpos hlimit]
  by_cases hexpired : cursor + 1 < h.oldestId slug
  · rw [if_pos hexpired]
    by_cases hlost : h.LostAfter slug cursor <;> simp [hexpired]
  · rw [if_neg hexpired]
    by_cases hlost : h.LostAfter slug cursor <;> simp [hexpired]

theorem Tracks.le_newestId (he : e ∈ h.publishedOf slug) : e.id ≤ h.newestId slug := by
  unfold History.newestId
  cases hlast : (h.publishedOf slug).getLast? with
  | none =>
    rw [getLast?_eq_none_iff.mp hlast] at he
    cases he
  | some => exact id_le_getLast (t.publishedOf_sorted slug) hlast he

theorem Tracks.retainedOf_subset (he : e ∈ h.retainedOf slug) : e ∈ h.publishedOf slug :=
  (t.retained_sublist slug).subset he

theorem Tracks.publishedOf_positive (he : e ∈ h.publishedOf slug) : 0 < e.id :=
  t.positive e (mem_publishedOf.mp he).1

/-- What was lost above a cursor, by the newest deleted event. -/
theorem Tracks.lostAfter_iff {d : StoredEvent} (hd : (h.deletedOf slug).getLast? = some d) :
    h.LostAfter slug cursor ↔ cursor < d.id := by
  constructor
  · rintro ⟨_, he, hlt⟩
    exact lt_of_lt_of_le hlt (id_le_getLast (t.deletedOf_sorted slug) hd he)
  · intro hlt
    exact ⟨d, mem_of_getLast? hd, hlt⟩

/-- A clean cut makes the test exact at every cursor. -/
theorem Tracks.agrees_of_cleanCut (hclean : CleanCut h slug) (hcursor : 0 < cursor)
    (hle : cursor ≤ h.newestId slug) : cursor + 1 < h.oldestId slug ↔ h.LostAfter slug cursor := by
  cases hhead : (h.retainedOf slug).head? with
  | some r =>
    have hcut := hclean.2 r hhead
    rw [oldestId_of_head hhead]
    cases hlast : (h.deletedOf slug).getLast? with
    | none =>
      rw [hlast] at hcut
      have hnone : ¬ h.LostAfter slug cursor := not_lostAfter hlast
      exact ⟨fun hlt => absurd hlt (by omega), fun hlost => absurd hlost hnone⟩
    | some =>
      rw [hlast] at hcut
      rw [t.lostAfter_iff hlast]
      omega
  | none =>
    -- everything is gone, so the newest published event is the newest deleted one
    have hempty : h.retainedOf slug = [] := head?_eq_none_iff.mp hhead
    have hall : h.oldestId slug = h.newestId slug + 1 := by
      unfold History.oldestId
      rw [hhead]
      rfl
    rw [hall]
    constructor
    · intro hlt
      unfold History.newestId at hlt
      cases hlast : (h.publishedOf slug).getLast? with
      | none =>
        rw [hlast] at hlt
        exact absurd hlt (by simp)
      | some newest =>
        rw [hlast] at hlt
        refine ⟨newest, ?_, lt_of_succ_lt_succ hlt⟩
        rcases retained_or_deleted (mem_of_getLast? hlast) with hr | hd
        · rw [hempty] at hr
          cases hr
        · exact hd
    · rintro ⟨_, he, _⟩
      have := t.le_newestId (deletedOf_subset he)
      omega

/-- If the test is exact at every cursor, the cut is clean. -/
theorem Tracks.cleanCut_of_agrees
    (hagrees : ∀ cursor, 0 < cursor → cursor ≤ h.newestId slug →
      (cursor + 1 < h.oldestId slug ↔ h.LostAfter slug cursor)) : CleanCut h slug := by
  have hbelow : ∀ d ∈ h.deletedOf slug, ∀ r ∈ h.retainedOf slug, d.id < r.id := by
    intro d hd r hr
    by_contra hnot
    have hne : d.id ≠ r.id := by
      intro heq
      have hsame := eq_of_id_eq (t.publishedOf_sorted slug) (deletedOf_subset hd)
        (t.retainedOf_subset hr) heq
      rw [hsame] at hd
      exact (mem_deletedOf.mp hd).2 (mem_retainedOf.mp hr).1
    -- the cursor at `r` has lost `d`, but the stream still begins at or before `r`
    have hnewest := t.le_newestId (deletedOf_subset hd)
    have hexpired := (hagrees r.id (t.publishedOf_positive (t.retainedOf_subset hr))
      (by omega)).mpr ⟨d, hd, by omega⟩
    cases hhead : (h.retainedOf slug).head? with
    | none =>
      rw [head?_eq_none_iff.mp hhead] at hr
      cases hr
    | some =>
      have hle := head_id_le (t.retainedOf_sorted slug) hhead hr
      rw [oldestId_of_head hhead] at hexpired
      omega
  refine ⟨hbelow, fun r hhead => ?_⟩
  have hr : r ∈ h.retainedOf slug := mem_of_mem_head? hhead
  have hnewest := t.le_newestId (t.retainedOf_subset hr)
  have hold := oldestId_of_head hhead
  cases hlast : (h.deletedOf slug).getLast? with
  | none =>
    -- cursor 1 must not be told that it lost anything
    by_contra hgap
    exact not_lostAfter hlast ((hagrees 1 (by omega) (by omega)).mp (by omega))
  | some d =>
    have hd := mem_of_getLast? hlast
    have hlt := hbelow d hd r hr
    by_contra hgap
    -- the cursor at the newest deleted event has lost nothing above it
    have hlost := (hagrees d.id (t.publishedOf_positive (deletedOf_subset hd)) (by omega)).mp
      (by omega)
    exact absurd ((t.lostAfter_iff hlast).mp hlost) (lt_irrefl _)

end Exactness

/-- Over every run, an unfiltered watch of an instance is exact at every cursor
    from its first id to the newest one exactly when the instance's deletions
    are a clean cut of its history. -/
theorem watch_exact_iff_cleanCut (validateEventRow : EventRow → Except StoreError Unit)
    (julianday : Timestamp → Int) (actions : List Action) (slug : String) :
    (∀ cursor limit, 0 < cursor →
        cursor ≤ (History.run validateEventRow julianday actions).newestId slug →
        0 < limit → limit ≤ maxBuffer →
        ExactAt validateEventRow (History.run validateEventRow julianday actions) slug
          cursor limit) ↔
      CleanCut (History.run validateEventRow julianday actions) slug := by
  have t : Tracks validateEventRow (History.run validateEventRow julianday actions) :=
    tracks_run actions
  constructor
  · intro hexact
    refine t.cleanCut_of_agrees fun cursor hcursor hle => ?_
    have hone := hexact cursor 1 hcursor hle (by decide) (by decide)
    exact (t.exactAt_iff hcursor hle (by decide) (by decide)).mp hone
  · intro hclean _ _ hcursor hle hpos hlimit
    exact (t.exactAt_iff hcursor hle hpos hlimit).mpr (t.agrees_of_cleanCut hclean hcursor hle)

/-- A prune that keeps the newest row of the host. -/
def keepNewestRow : Action := .prune .eventRows ⟨none, 1, none, 0, 0, 64⟩ 0 true

/-- Append a generic event of the instance. -/
def appendGeneric (slug subject : String) : Action :=
  .append ⟨slug, "readiness.ready", subject, none, 0, none⟩ none none

/-- A started job keeps event 1 while event 2 is pruned. -/
def protectedRun : List Action :=
  [.writeJobs [⟨1, "edge", "job-1", "started", 0⟩], appendGeneric "edge" "job-1",
    appendGeneric "edge" "host", appendGeneric "edge" "host", keepNewestRow]

/-- Events 2 and 3 of another instance lie between the two of this one. -/
def interleavedRun : List Action :=
  [appendGeneric "edge" "host", appendGeneric "core" "host", appendGeneric "core" "host",
    appendGeneric "edge" "host", keepNewestRow]

/-- The history of a run in which every event passes the contract. -/
def acceptingRun (actions : List Action) : History := History.run (fun _ => .ok ()) id actions

/-- From cursor 1 the first run answers event 3 and is silent about the lost
    event 2; the second one reports lost history although nothing above the
    cursor is gone. -/
theorem watch_inexact_at_first_event :
    (watch (fun _ => .ok ()) (acceptingRun protectedRun).store "edge" (cursorRequest 1 10) =
          .ok [⟨3, 0, "readiness.ready", "host", none⟩] ∧
        ∃ e ∈ (acceptingRun protectedRun).deletedOf "edge", 1 < e.id) ∧
      watch (fun _ => .ok ()) (acceptingRun interleavedRun).store "edge" (cursorRequest 1 10) =
          .error cursorExpired ∧
        ¬ ∃ e ∈ (acceptingRun interleavedRun).deletedOf "edge", 1 < e.id := by
  decide +kernel

end Velnor.Control.EventStream
