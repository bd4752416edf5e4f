/-
  The durable event stream of a host (observation.rs, store/records.rs): the
  `events` table, the `event_stream_state` row each instance has, the append
  that writes both and the cursor read that `watch` answers from.

  Event ids are handed out once for the whole host; a stream is the events of
  one instance.  The summary row of an instance says where its stream begins
  (`first_retained_id`) and the last id it reached (`high_water_id`), and
  `watch` decides from that row alone whether a cursor has lost history.

  `validate_event_contract` reads the texts of an event and nothing else, so it
  is a parameter: the results hold whatever it accepts.
-/
import Velnor.Relational.Sequenced
import Velnor.Relational.Script

namespace Velnor.Control.EventStream

open Relational

/-! ## Errors -/

inductive ExitClass where
  | usage
  | conflict
  | operation
  deriving DecidableEq, Repr

/-- A failed store call: its class and its reason. -/
structure StoreError where
  exitClass : ExitClass
  reason : String
  deriving DecidableEq, Repr

/-- A statement that SQLite refuses (a full table, a `CHECK`). -/
def sqliteError : StoreError := ⟨.operation, "store.sqlite"⟩

/-- What the ports answer when a call fails. -/
inductive PortError where
  | invalid (field message : String)
  | conflict (operation : String)
  | operation (operation : String)
  deriving DecidableEq, Repr

/-! ## Tables -/

/-- `Timestamp`, in nanoseconds from the epoch. -/
abbrev Timestamp := Int

/-- `EventRow`. -/
structure EventRow where
  instanceSlug : String
  eventKind : String
  subject : String
  correlationId : Option String
  occurredAt : Timestamp
  detail : Option String
  deriving DecidableEq, Repr

/-- A row of `events`: the event with its two ownership columns. -/
structure EventRecord extends EventRow where
  transitionId : Option Nat
  reconciliationId : Option Nat
  deriving DecidableEq, Repr

/-- One stored event. -/
abbrev StoredEvent := Numbered EventRecord

/-- A row of `event_stream_state`, under the two `CHECK`s of its table. -/
structure StreamState where
  firstRetainedId : Nat
  highWaterId : Nat
  starts : 1 ≤ firstRetainedId
  adjoins : firstRetainedId ≤ highWaterId + 1
  deriving DecidableEq

/-- Write a summary row; the `CHECK`s refuse a bad one. -/
def StreamState.checked? (firstRetainedId highWaterId : Nat) : Except StoreError StreamState :=
  if h : 1 ≤ firstRetainedId ∧ firstRetainedId ≤ highWaterId + 1 then
    .ok ⟨firstRetainedId, highWaterId, h.1, h.2⟩
  else .error sqliteError

/-- The columns of `jobs` that retention reads. -/
structure JobRow where
  id : Nat
  instanceSlug : String
  jobUid : String
  phase : String
  updatedAt : Timestamp
  deriving DecidableEq, Repr

/-- The columns of `job_transitions` that retention reads. -/
structure TransitionRow where
  id : Nat
  instanceSlug : String
  jobUid : String
  deriving DecidableEq, Repr

/-- The columns of `reconciliations` that retention reads. -/
structure ReconciliationRow where
  id : Nat
  instanceSlug : String
  status : String
  deriving DecidableEq, Repr

/-- The host database.  `jobs`, `transitions` and `reconciliations` are in id order. -/
structure Store where
  events : Sequenced EventRecord
  /-- `event_stream_state` by its primary key. -/
  streams : String → Option StreamState
  jobs : List JobRow
  transitions : List TransitionRow
  reconciliations : List ReconciliationRow

/-- A fresh database. -/
def Store.fresh : Store where
  events := .empty
  streams := fun _ => none
  jobs := []
  transitions := []
  reconciliations := []

/-- `WHERE instance_slug = ?`. -/
def ofInstance (slug : String) (e : StoredEvent) : Bool := e.row.instanceSlug = slug

variable (s : Store) (slug : String) (state : StreamState)

/-- Replace the summary row of one instance. -/
def Store.setStream : Store :=
  { s with streams := Function.update s.streams slug (some state) }

@[simp] theorem Store.setStream_events : (s.setStream slug state).events = s.events := rfl

theorem Store.setStream_streams (i : String) :
    (s.setStream slug state).streams i = if i = slug then some state else s.streams i :=
  Function.update_apply _ _ _ _

theorem StreamState.checked?_ok {first high : Nat} {state : StreamState}
    (h : checked? first high = .ok state) :
    state.firstRetainedId = first ∧ state.highWaterId = high := by
  unfold checked? at h
  split at h
  · cases h
    exact ⟨rfl, rfl⟩
  · cases h

/-! ## Appending -/

/-- `validate_event_ancestry_in_transaction`. -/
def validateEventAncestry (s : Store) (instanceSlug subject : String)
    (transitionId reconciliationId : Option Nat) : Except StoreError Unit := do
  refuseIf (transitionId.any fun id => !s.transitions.any fun t =>
      t.id = id && t.instanceSlug = instanceSlug && t.jobUid = subject)
    ⟨.conflict, "store.event.ancestry"⟩
  refuseIf (reconciliationId.any fun id => !s.reconciliations.any fun r =>
      r.id = id && r.instanceSlug = instanceSlug)
    ⟨.conflict, "store.event.ancestry"⟩

/-- The summary row after event `id`: `INSERT .. ON CONFLICT DO UPDATE`. -/
def extendStream (stream : Option StreamState) (id : Nat) : Except StoreError StreamState :=
  match stream with
  | none => StreamState.checked? id id
  | some state =>
    StreamState.checked?
      (if state.firstRetainedId > state.highWaterId then id else state.firstRetainedId) id

/-- `append_event_with_ancestry_in_transaction`: the id of the event and the
    database after the transaction. -/
def appendEventWithAncestry (validateEventRow : EventRow → Except StoreError Unit)
    (row : EventRow) (transitionId reconciliationId : Option Nat) (s : Store) :
    Except StoreError (Nat × Store) := do
  validateEventRow row
  validateEventAncestry s row.instanceSlug row.subject transitionId reconciliationId
  refuseIf (s.events.last ≥ maxRowId) sqliteError
  let id := s.events.last + 1
  let state ← extendStream (s.streams row.instanceSlug) id
  let record : EventRecord := ⟨row, transitionId, reconciliationId⟩
  pure (id, { s with events := s.events.insert record }.setStream row.instanceSlug state)

/-! ## Reading -/

/-- `EventWindow`. -/
structure EventWindow where
  firstRetainedId : Option Nat
  highWaterId : Option Nat
  events : List StoredEvent

/-- `COLLATE NOCASE`: equal up to the case of ASCII letters. -/
def nocaseEq (a b : String) : Bool := a.toList.map Char.toLower = b.toList.map Char.toLower

/-- `dedup_by_key(|event| event.id)`: drop an event that repeats the id before it. -/
def dedupById : List StoredEvent → List StoredEvent
  | [] => []
  | [e] => [e]
  | e :: f :: rest => if e.id = f.id then dedupById (e :: rest) else e :: dedupById (f :: rest)

/-- `decode_stored_event`: a stored event that breaks the contract is an error. -/
def decodeStoredEvent (validateEventRow : EventRow → Except StoreError Unit) (e : StoredEvent) :
    Except StoreError StoredEvent :=
  match validateEventRow e.row.toEventRow with
  | .ok () => .ok e
  | .error _ => .error sqliteError

/-- `MAX_BUFFER`, and the same limit in `event_window`. -/
def maxBuffer : Nat := 4096

/-- `event_window`. -/
def eventWindow (validateEventRow : EventRow → Except StoreError Unit) (s : Store)
    (instanceSlug : String) (afterId : Nat) (resourceKind : Option String) (limit : Nat) :
    Except StoreError EventWindow := do
  refuseIf (limit = 0 ∨ limit > maxBuffer) ⟨.usage, "store.event.limit"⟩
  refuseIf (afterId > maxRowId) ⟨.usage, "store.event.cursor"⟩
  let select (p : StoredEvent → Bool) : Except StoreError (List StoredEvent) :=
    ((s.events.selectWhere fun e => ofInstance instanceSlug e && p e && afterId < e.id).take limit)
      |>.mapM (decodeStoredEvent validateEventRow)
  let events ← match resourceKind with
    | none => select fun _ => true
    | some kind => do
      let byKind ← select fun e => nocaseEq e.row.eventKind kind
      let bySubject ← select fun e => nocaseEq e.row.subject kind
      pure ((dedupById ((byKind ++ bySubject).insertionSort fun a b => a.id ≤ b.id)).take limit)
  let first := ((s.streams instanceSlug).map StreamState.firstRetainedId).getD 1
  let high := ((s.streams instanceSlug).map StreamState.highWaterId).getD 0
  pure ⟨if high > 0 then some first else none, if high > 0 then some high else none, events⟩

/-- `WatchRequest`. -/
structure WatchRequest where
  resourceKind : Option String
  afterVersion : Option Nat
  limit : Nat

/-- `WatchItem`: the version is the event's id, its payload the stored event's
    texts.  `correlation_id` stays behind. -/
structure WatchItem where
  version : Nat
  occurredAt : Timestamp
  eventKind : String
  subject : String
  detail : Option String
  deriving DecidableEq, Repr

def watchItem (e : StoredEvent) : WatchItem where
  version := e.id
  occurredAt := e.row.occurredAt
  eventKind := e.row.eventKind
  subject := e.row.subject
  detail := e.row.detail

/-- The answer to a cursor whose history is gone. -/
def cursorExpired : PortError := .conflict "event cursor expired; resnapshot required"

/-- `u64::saturating_add`. -/
def saturatingAdd (a b : Nat) : Nat := min (a + b) (2 ^ 64 - 1)

/-- `EventStream::watch` over the durable store. -/
def watch (validateEventRow : EventRow → Except StoreError Unit) (s : Store)
    (instanceSlug : String) (request : WatchRequest) : Except PortError (List WatchItem) := do
  refuseIf (request.limit = 0 ∨ request.limit > maxBuffer)
    (.invalid "limit" "must be between 1 and 4096")
  let after := request.afterVersion.getD 0
  let window ← (eventWindow validateEventRow s instanceSlug after request.resourceKind
    request.limit).mapError fun _ => .operation "event read"
  refuseIf (window.firstRetainedId.any fun first =>
      decide (after ≠ 0) && decide (saturatingAdd after 1 < first)) cursorExpired
  refuseIf (window.highWaterId.any fun last => after > last)
    (.invalid "after_version" "event cursor is ahead of the stream")
  pure (window.events.map watchItem)

end Velnor.Control.EventStream
