/-
  `reconcile_attempts_with_staged_acquisitions` (permit_ledger.rs): four loops
  over the caller's observations that share one set of seen holders, a sweep
  of the rows nobody listed, and the mark that lets this epoch advertise.

  Each of the four loop bodies meets `Observes`, the sweep body meets
  `Swept`, and everything said about a whole reconcile is said of those two.
-/
import Velnor.Control.PermitLedger.Release

namespace Velnor.Control

open Relational PermitLedger PermitRow List

/-! ## Inputs and working state -/

/-- A live observation: exact owner of an existing row. -/
structure AliveAttempt where
  holder : Holder
  lane : PermitLane
  attemptToken : Token
  deriving DecidableEq, Repr

/-- A staged recovery rotation. -/
structure StagedRotation where
  holder : Holder
  lane : PermitLane
  previousToken : Option Token
  targetToken : Token
  deriving DecidableEq, Repr

/-- A staged release. -/
structure StagedRelease where
  holder : Holder
  lane : PermitLane
  attemptToken : Token
  targetDemandState : DemandState
  deriving DecidableEq, Repr

/-- A staged acquisition. -/
structure StagedAcquisition where
  holder : Holder
  lane : PermitLane
  attemptToken : Token
  deriving DecidableEq, Repr

/-- What a reconcile confirmed or marked uncertain. -/
structure ReconcileReport where
  markedUncertain : List Holder
  confirmed : List Holder
  deriving DecidableEq, Repr

/-- Working state of the four loops. -/
structure Reconciling where
  db : PermitLedger
  observed : Finset Holder
  confirmed : List Holder

namespace Reconciling

variable (st : Reconciling) (holder : Holder)

/-- The holder is seen and its row attested. -/
def confirm : Reconciling :=
  { st with
    observed := insert holder st.observed
    confirmed := st.confirmed ++ [holder] }

/-- The holder is seen and has no row. -/
def skip : Reconciling :=
  { st with observed := insert holder st.observed }

/-- Attest a row and repair its demand. -/
def confirmGranted (lane : PermitLane) (now : UnixTime) : Except LedgerError Reconciling :=
  match st.db.ensureGrantedTx holder lane now.secs with
  | .error error => .error error
  | .ok db => .ok ({ st with db := db }.confirm holder)

/-! ## The loop bodies -/

def observeAlive (now : UnixTime) (st : Reconciling) (item : AliveAttempt) :
    Except LedgerError Reconciling :=
  -- `observed` is shared by the four loops: a holder is listed once in all
  if item.attemptToken.isEmpty ∨ item.holder ∈ st.observed then
    .error (.staleAttempt item.holder)
  else
    match st.db.permits.get? item.holder with
    | none => .error (.staleAttempt item.holder)
    | some row =>
      if row.lane ≠ item.lane then
        .error (.demandLaneMismatch item.holder item.lane row.lane)
      else if row.attemptToken ≠ item.attemptToken then .error (.staleAttempt item.holder)
      else st.confirmGranted item.holder item.lane now

/-- After the rotation committed, the row must carry its proof. -/
def completedRotationMatches (row : PermitRow) (previousToken : Option Token) : Bool :=
  row.recoveryClaimToken.any (fun token => !token.isEmpty)
    && row.recoveryPreviousPid.any (fun pid => 0 < pid)
    && row.recoveryPreviousToken == previousToken

/-- Whether the recorded token is the staged previous or the proven target. -/
def rotationMatches (db : PermitLedger) (item : StagedRotation) (row : PermitRow) : Bool :=
  if item.previousToken = some row.attemptToken then true
  else if row.attemptToken = item.targetToken then
    completedRotationMatches row item.previousToken
  else
    match item.previousToken with
    -- a row from before tokens: the token its migration gave it
    | none => (item.holder, row.attemptToken) ∈ db.tokenMigrations
    | some _ => false

def observeRotation (now : UnixTime) (st : Reconciling) (item : StagedRotation) :
    Except LedgerError Reconciling :=
  if item.lane ≠ .scaleSet ∨ item.targetToken.isEmpty ∨ item.previousToken.any String.isEmpty
      ∨ item.previousToken = some item.targetToken ∨ item.holder ∈ st.observed then
    .error (.staleAttempt item.holder)
  else
    match st.db.permits.get? item.holder with
    | none => .error (.staleAttempt item.holder)
    | some row =>
      if row.lane ≠ .scaleSet then
        .error (.demandLaneMismatch item.holder .scaleSet row.lane)
      else if row.attemptToken.isEmpty ∨ ¬ rotationMatches st.db item row then
        .error (.staleAttempt item.holder)
      else st.confirmGranted item.holder .scaleSet now

def observeRelease (st : Reconciling) (item : StagedRelease) : Except LedgerError Reconciling :=
  if item.lane ≠ .scaleSet then .error (.demandLaneMismatch item.holder .scaleSet item.lane)
  else if ¬ (item.targetDemandState = .eligible ∨ item.targetDemandState = .cancelled
        ∨ item.targetDemandState = .terminal)
      ∨ item.attemptToken.isEmpty ∨ item.holder ∈ st.observed then
    .error (.staleAttempt item.holder)
  else
    match st.db.permits.get? item.holder with
    | none =>
      -- the demand proves that the token-fenced release committed
      match st.db.demands.get? item.holder with
      | none => .error (.staleAttempt item.holder)
      | some demand =>
        if demand.lane ≠ item.lane then
          .error (.demandLaneMismatch item.holder item.lane demand.lane)
        else if demand.state ≠ item.targetDemandState then .error (.staleAttempt item.holder)
        else .ok (st.skip item.holder)
    | some row =>
      if row.lane ≠ item.lane then
        .error (.demandLaneMismatch item.holder .scaleSet row.lane)
      else if row.attemptToken ≠ item.attemptToken then .error (.staleAttempt item.holder)
      else .ok (st.confirm item.holder)

def observeAcquisition (st : Reconciling) (item : StagedAcquisition) :
    Except LedgerError Reconciling :=
  if item.lane ≠ .scaleSet ∨ item.attemptToken.isEmpty ∨ item.holder ∈ st.observed then
    .error (.staleAttempt item.holder)
  else
    match st.db.permits.get? item.holder with
    -- the state journal precedes the ledger insert
    | none => .ok (st.skip item.holder)
    | some row =>
      if row.lane ≠ item.lane then
        .error (.demandLaneMismatch item.holder item.lane row.lane)
      else if row.attemptToken ≠ item.attemptToken then .error (.staleAttempt item.holder)
      else .ok (st.confirm item.holder)

end Reconciling

/-! ## The sweep -/

/-- Working state of the sweep: the database and the holders marked so far. -/
structure Sweeping where
  db : PermitLedger
  markedUncertain : List Holder

/-- The row of a holder nobody listed. -/
def PermitRow.sweptTo (row : PermitRow) (generation now : Int) : PermitRow :=
  { row with
    state := .uncertain
    updatedUnix := now
    generation := generation }

/-- `UPDATE permits SET state = 'uncertain' ... WHERE holder = ? AND state <> 'cleaning'`. -/
def PermitLedger.markUnobserved (db : PermitLedger) (holder : Holder) (now : Int) : PermitLedger :=
  { db with
    permits := db.permits.updateWhere holder (fun row => row.state ≠ .cleaning)
      (fun row => row.sweptTo db.permitMeta.generation now) (fun _ => ⟨rfl, rfl⟩) }

def Sweeping.sweep (now : UnixTime) (observed : Finset Holder) (st : Sweeping) (row : PermitRow) :
    Except LedgerError Sweeping :=
  if row.holder ∈ observed then .ok st
  else
    let changed := st.db.permits.changed row.holder fun r => r.state ≠ .cleaning
    -- a worker may have claimed cleanup after the snapshot was taken
    if changed = 0 then .ok { st with db := st.db.markUnobserved row.holder now.toI64 }
    else
      match (st.db.markUnobserved row.holder now.toI64).ensureGrantedTx row.holder row.lane
          now.secs with
      | .error error => .error error
      | .ok db => .ok ⟨db, st.markedUncertain ++ [row.holder]⟩

namespace PermitLedger

variable (alive : List AliveAttempt) (stagedRotations : List StagedRotation)
  (stagedReleases : List StagedRelease) (stagedAcquisitions : List StagedAcquisition)
  (now : UnixTime) (db : PermitLedger)

/-- The four loops, in order. -/
def observeAll : Except LedgerError Reconciling := do
  let st ← alive.foldlM (Reconciling.observeAlive now) ⟨db, ∅, []⟩
  let st ← stagedRotations.foldlM (Reconciling.observeRotation now) st
  let st ← stagedReleases.foldlM Reconciling.observeRelease st
  stagedAcquisitions.foldlM Reconciling.observeAcquisition st

/-- The body of `reconcile_attempts_with_staged_acquisitions`. -/
def reconcileTx : TxEnd PermitLedger LedgerError ReconcileReport :=
  match observeAll alive stagedRotations stagedReleases stagedAcquisitions now db with
  | .error error => .fail error
  | .ok st =>
    -- the rows are read once, after the loops
    match st.db.permits.rows.foldlM (Sweeping.sweep now st.observed) ⟨st.db, []⟩ with
    | .error error => .fail error
    | .ok swept =>
      .commit
        ⟨swept.markedUncertain.insertionSort (· ≤ ·), st.confirmed.insertionSort (· ≤ ·)⟩
        { swept.db with
          permitMeta :=
            { swept.db.permitMeta with
              reconciledGeneration := swept.db.permitMeta.generation } }

/-- Reconcile exact live observations and durable Scale Set rotation, release
    and acquisition stages in one ledger transaction. -/
def reconcileAttemptsWithStagedAcquisitions (ledger : PermitLedger) (alive : List AliveAttempt)
    (stagedRotations : List StagedRotation) (stagedReleases : List StagedRelease)
    (stagedAcquisitions : List StagedAcquisition) (now : UnixTime) :
    Except LedgerError ReconcileReport × PermitLedger :=
  immediate ledger (reconcileTx alive stagedRotations stagedReleases stagedAcquisitions now)

end PermitLedger

/-! ## What the loops can do to the ledger -/

/-- No permit moves, and demands of held permits are at most recorded. -/
structure OnlyRecorded (db db' : PermitLedger) : Prop extends Aged db db' where
  holding : ∀ k, db'.holding k = db.holding k
  queued : ∀ k, db'.queued k = db.queued k
    ∨ ∃ p, db.holding k = some p ∧ PermitLedger.Recorded p.lane (db.queued k) (db'.queued k)

namespace OnlyRecorded

theorem refl (db : PermitLedger) : OnlyRecorded db db :=
  ⟨.of_places rfl, fun _ => rfl, fun _ => .inl rfl⟩

variable {db db' : PermitLedger}

theorem trans {mid : PermitLedger} (h : OnlyRecorded db mid) (h' : OnlyRecorded mid db') :
    OnlyRecorded db db' := by
  refine ⟨h.toAged.trans h'.toAged, fun k => (h'.holding k).trans (h.holding k), fun k => ?_⟩
  rcases h.queued k with hq | ⟨p, hp, hr⟩
  · rw [← hq, ← h.holding k]
    exact h'.queued k
  -- recorded twice, for one permit: recording is idempotent
  rcases h'.queued k with hq' | ⟨_, hp', hr'⟩
  · rw [hq']
    exact .inr ⟨p, hp, hr⟩
  · rw [h.holding k, hp] at hp'
    cases hp'
    exact .inr ⟨p, hp, hr.trans hr'⟩

theorem of_views (h : ∀ k, db'.view k = db.view k) (hplaces : db'.places = db.places) :
    OnlyRecorded db db' :=
  ⟨.of_places hplaces, fun k => congrArg View.permit (h k),
    fun k => .inl (congrArg View.demand (h k))⟩

theorem of_ensureGrantedTx {holder : Holder} {p : Holding} {now : Nat}
    (hp : db.holding holder = some p) (hens : db.ensureGrantedTx holder p.lane now = .ok db') :
    OnlyRecorded db db' := by
  have htouches : Touches none db db' := touches_ensureGrantedTx hens
  have h := ensureGrantedTx_ok hens
  refine ⟨htouches.toAged, fun k => ?_, fun k => ?_⟩
  · rw [PermitLedger.holding, PermitLedger.holding, h.permits]
  by_cases hk : k = holder
  · subst hk
    exact .inr ⟨p, hp, h.recorded⟩
  · exact .inl (h.queued_ne hk)

theorem refines (h : OnlyRecorded db db') : Refines db .internal db' := by
  intro k
  rw [view, view, h.holding k]
  rcases h.queued k with hq | ⟨_, hp, hr⟩
  · rw [hq]
    exact LifeStep.refl _
  · rw [hp]
    exact .held hr.settle

end OnlyRecorded

/-! ## The four loops -/

/-- One pass of any of the four loops: a holder not seen before is now seen,
    confirmed if it has a row, and nothing but its demand may have moved. -/
structure Observes (st : Reconciling) (holder : Holder) (st' : Reconciling) : Prop where
  fresh : holder ∉ st.observed
  observed : st'.observed = insert holder st.observed
  confirmed : st'.confirmed = st.confirmed ++ [holder].filter fun k => (st.db.permits.get? k).isSome
  rest : st'.db = { st.db with demands := st'.db.demands }
  recorded : OnlyRecorded st.db st'.db

namespace Observes

variable {st st' : Reconciling} {holder : Holder}

theorem of_skip (hnone : st.db.permits.get? holder = none) (hfresh : holder ∉ st.observed) :
    Observes st holder (st.skip holder) :=
  ⟨hfresh, rfl, by simp [Reconciling.skip, hnone], rfl, OnlyRecorded.refl st.db⟩

theorem of_confirm {row : PermitRow} (hrow : st.db.permits.get? holder = some row)
    (hfresh : holder ∉ st.observed) : Observes st holder (st.confirm holder) :=
  ⟨hfresh, rfl, by simp [Reconciling.confirm, hrow], rfl, OnlyRecorded.refl st.db⟩

variable {now : UnixTime}

theorem of_confirmGranted {row : PermitRow} (hrow : st.db.permits.get? holder = some row)
    (hfresh : holder ∉ st.observed) (h : st.confirmGranted holder row.lane now = .ok st') :
    Observes st holder st' := by
  unfold Reconciling.confirmGranted at h
  split at h
  · cases h
  rename_i _ hens
  cases h
  have hE := ensureGrantedTx_ok hens
  refine ⟨hfresh, rfl, by simp [Reconciling.confirm, hrow], hE.rest, ?_⟩
  exact OnlyRecorded.of_ensureGrantedTx (holding_of_get? hrow) hens

theorem of_observeAlive {item : AliveAttempt} (h : Reconciling.observeAlive now st item = .ok st') :
    Observes st item.holder st' := by
  unfold Reconciling.observeAlive at h
  repeat' split at h
  any_goals cases h
  rename_i hargs _ _ hrow hlane _
  rw [← not_not.mp hlane] at h
  exact of_confirmGranted hrow (fun hseen => hargs (.inr hseen)) h

theorem of_observeRotation {item : StagedRotation}
    (h : Reconciling.observeRotation now st item = .ok st') : Observes st item.holder st' := by
  unfold Reconciling.observeRotation at h
  repeat' split at h
  any_goals cases h
  rename_i hargs _ _ hrow hlane _
  rw [← not_not.mp hlane] at h
  refine of_confirmGranted hrow (fun hseen => hargs ?_) h
  exact .inr (.inr (.inr (.inr hseen)))

theorem of_observeRelease {item : StagedRelease}
    (h : Reconciling.observeRelease st item = .ok st') : Observes st item.holder st' := by
  unfold Reconciling.observeRelease at h
  repeat' split at h
  all_goals cases h
  · rename_i hargs _ hnone _ _ _ _ _
    exact of_skip hnone fun hseen => hargs (.inr (.inr hseen))
  · rename_i hargs _ _ hrow _ _
    exact of_confirm hrow fun hseen => hargs (.inr (.inr hseen))

theorem of_observeAcquisition {item : StagedAcquisition}
    (h : Reconciling.observeAcquisition st item = .ok st') : Observes st item.holder st' := by
  unfold Reconciling.observeAcquisition at h
  repeat' split at h
  all_goals cases h
  · rename_i hargs _ hnone
    exact of_skip hnone fun hseen => hargs (.inr (.inr hseen))
  · rename_i hargs _ _ hrow _ _
    exact of_confirm hrow fun hseen => hargs (.inr (.inr hseen))

end Observes

/-- A run of passes over the holders `ks`, in order. -/
inductive ObservesAll : Reconciling → List Holder → Reconciling → Prop where
  | nil (st : Reconciling) : ObservesAll st [] st
  | cons {st mid st' : Reconciling} {k : Holder} {ks : List Holder} (h : Observes st k mid)
      (hs : ObservesAll mid ks st') : ObservesAll st (k :: ks) st'

namespace ObservesAll

variable {st st' : Reconciling} {ks : List Holder}

theorem of_foldlM {ι : Type} {f : Reconciling → ι → Except LedgerError Reconciling}
    {key : ι → Holder} {items : List ι} (h : items.foldlM f st = .ok st')
    (hf : ∀ st item st', f st item = .ok st' → Observes st (key item) st') :
    ObservesAll st (items.map key) st' := by
  induction items generalizing st with
  | nil =>
    obtain rfl := Except.ok.inj h
    exact .nil st
  | cons _ _ ih =>
    obtain ⟨_, hitem, hrest⟩ := foldlM_cons_ok h
    exact .cons (hf _ _ _ hitem) (ih hrest)

theorem append {mid : Reconciling} {ks' : List Holder} (h : ObservesAll st ks mid)
    (h' : ObservesAll mid ks' st') : ObservesAll st (ks ++ ks') st' := by
  induction h with
  | nil => exact h'
  | cons hk _ ih => exact .cons hk (ih h')

section

variable (h : ObservesAll st ks st')
include h

theorem rest : st'.db = { st.db with demands := st'.db.demands } := by
  induction h with
  | nil => rfl
  | cons hk _ ih => rw [ih, hk.rest]

theorem recorded : OnlyRecorded st.db st'.db := by
  induction h with
  | nil => exact .refl _
  | cons hk _ ih => exact hk.recorded.trans ih

theorem mem_observed (k : Holder) : k ∈ st'.observed ↔ k ∈ st.observed ∨ k ∈ ks := by
  induction h with
  | nil => simp
  | cons hk _ ih =>
    rw [ih, hk.observed, Finset.mem_insert, mem_cons]
    tauto

/-- The shared set refuses a holder listed twice, in one list or in two. -/
theorem nodup : ks.Nodup ∧ ∀ k ∈ ks, k ∉ st.observed := by
  induction h with
  | nil => simp
  | @cons _ _ _ k ks hk _ ih =>
    obtain ⟨hnodup, hfresh⟩ := ih
    have hnotin : k ∉ ks := fun hmem => hfresh k hmem (by simp [hk.observed])
    refine ⟨nodup_cons.mpr ⟨hnotin, hnodup⟩, fun j hj => ?_⟩
    rcases mem_cons.mp hj with rfl | hj
    · exact hk.fresh
    · intro hseen
      exact hfresh j hj (by simp [hk.observed, hseen])

theorem confirmed :
    st'.confirmed = st.confirmed ++ ks.filter fun k => (st.db.permits.get? k).isSome := by
  induction h with
  | nil => simp
  | @cons st mid _ _ _ hk _ ih =>
    have hpermits : mid.db.permits = st.db.permits := by rw [hk.rest]
    rw [ih, hk.confirmed, hpermits, append_assoc, ← filter_append]
    rfl

end

end ObservesAll

/-- The holders the four input lists name. -/
def listedHolders (alive : List AliveAttempt) (stagedRotations : List StagedRotation)
    (stagedReleases : List StagedRelease) (stagedAcquisitions : List StagedAcquisition) :
    List Holder :=
  alive.map AliveAttempt.holder ++ (stagedRotations.map StagedRotation.holder
    ++ (stagedReleases.map StagedRelease.holder ++ stagedAcquisitions.map StagedAcquisition.holder))

variable {now : UnixTime} {observed : Finset Holder}

theorem observesAll_of_observeAll {alive : List AliveAttempt}
    {stagedRotations : List StagedRotation} {stagedReleases : List StagedRelease}
    {stagedAcquisitions : List StagedAcquisition} {db : PermitLedger} {st : Reconciling}
    (h : observeAll alive stagedRotations stagedReleases stagedAcquisitions now db = .ok st) :
    ObservesAll ⟨db, ∅, []⟩
      (listedHolders alive stagedRotations stagedReleases stagedAcquisitions) st := by
  obtain ⟨_, h₁, h⟩ := bind_ok h
  obtain ⟨_, h₂, h⟩ := bind_ok h
  obtain ⟨_, h₃, h₄⟩ := bind_ok h
  exact (ObservesAll.of_foldlM h₁ fun _ _ _ => Observes.of_observeAlive).append
    ((ObservesAll.of_foldlM h₂ fun _ _ _ => Observes.of_observeRotation).append
      ((ObservesAll.of_foldlM h₃ fun _ _ _ => Observes.of_observeRelease).append
        (ObservesAll.of_foldlM h₄ fun _ _ _ => Observes.of_observeAcquisition)))

/-! ## The sweep -/

/-- What the sweep makes of a row: an active cleanup claim stays intact. -/
def PermitRow.swept (row : PermitRow) (generation now : Int) : PermitRow :=
  if row.state ≠ .cleaning then row.sweptTo generation now else row

/-- The sweep marks this holder. -/
def PermitLedger.sweeps (db : PermitLedger) (observed : Finset Holder) (k : Holder) : Bool :=
  k ∉ observed ∧ (db.permits.get? k).any fun row => row.state ≠ .cleaning

theorem PermitLedger.get?_markUnobserved (db : PermitLedger) (holder : Holder) (now : Int)
    (k : Holder) :
    (db.markUnobserved holder now).permits.get? k
      = if k = holder then
          (db.permits.get? k).map fun row => row.swept db.permitMeta.generation now
        else db.permits.get? k := by
  simp only [markUnobserved, Table.get?_updateWhere, swept]
  split <;> simp [*]

theorem PermitLedger.view_markUnobserved (db : PermitLedger) (holder : Holder) (now : Int)
    (k : Holder) : (db.markUnobserved holder now).view k = db.view k := by
  have hholding : (db.markUnobserved holder now).holding k = db.holding k := by
    rw [holding, get?_markUnobserved, holding]
    by_cases hk : k = holder
    · rw [if_pos hk, Option.map_map]
      congr 1
      funext row
      simp only [Function.comp, swept]
      split <;> rfl
    · rw [if_neg hk]
  rw [view, hholding]
  rfl

/-- One pass of the sweep, or a run of them, over the holders `ks`. -/
structure Sweeps (now : UnixTime) (observed : Finset Holder) (st : Sweeping) (ks : List Holder)
    (st' : Sweeping) : Prop where
  permits : ∀ k, st'.db.permits.get? k
    = if k ∈ ks ∧ k ∉ observed then
        (st.db.permits.get? k).map fun row => row.swept st.db.permitMeta.generation now.toI64
      else st.db.permits.get? k
  marked : st'.markedUncertain = st.markedUncertain ++ ks.filter (st.db.sweeps observed)
  rest : st'.db = { st.db with permits := st'.db.permits, demands := st'.db.demands }
  recorded : OnlyRecorded st.db st'.db

/-- A holder that was observed is passed over. -/
theorem Sweeps.of_observed (now : UnixTime) (st : Sweeping) {k : Holder} (hseen : k ∈ observed) :
    Sweeps now observed st [k] st := by
  refine ⟨fun k' => ?_, ?_, rfl, .refl _⟩
  · rw [if_neg]
    rintro ⟨hk, hno⟩
    rw [mem_singleton] at hk
    exact hno (hk ▸ hseen)
  · simp [sweeps, hseen]

theorem Sweeps.of_sweep {st st' : Sweeping} {row : PermitRow} {p : Holding}
    (hp : st.db.holding row.holder = some p) (hlane : p.lane = row.lane)
    (h : Sweeping.sweep now observed st row = .ok st') :
    Sweeps now observed st [row.holder] st' := by
  unfold Sweeping.sweep at h
  split at h
  · rename_i hseen
    cases h
    exact .of_observed now st hseen
  · rename_i hfresh
    simp only [Table.changed_eq] at h
    have hview := st.db.view_markUnobserved row.holder now.toI64
    have hmember : ∀ k, k ∈ [row.holder] ∧ k ∉ observed ↔ k = row.holder := fun k => by
      rw [mem_singleton, and_iff_left_of_imp (· ▸ hfresh)]
    -- the row count of the update says whether it was marked
    cases hany : (st.db.permits.get? row.holder).any fun r => r.state ≠ .cleaning with
    | false =>
      simp only [hany] at h
      cases h
      have hsweeps : st.db.sweeps observed row.holder = false := by
        simp only [sweeps, hany]
        simp
      exact ⟨fun k => by simp only [hmember, get?_markUnobserved], by simp [hsweeps], rfl,
        .of_views hview rfl⟩
    | true =>
      simp only [hany, if_true, Nat.one_ne_zero, if_false] at h
      split at h
      · cases h
      rename_i db hens
      cases h
      rw [← hlane] at hens
      have hE := ensureGrantedTx_ok hens
      have hp' : (st.db.markUnobserved row.holder now.toI64).holding row.holder = some p :=
        (congrArg View.permit (hview row.holder)).trans hp
      refine ⟨fun k => ?_, ?_, ?_,
        (OnlyRecorded.of_views hview rfl).trans (.of_ensureGrantedTx hp' hens)⟩
      · simp only [hE.permits, hmember, get?_markUnobserved]
      · have hsweeps : st.db.sweeps observed row.holder = true := by
          simp only [sweeps, hany]
          simp [hfresh]
        simp [hsweeps]
      · rw [hE.rest]
        rfl

theorem Sweeps.of_foldlM {rows : List PermitRow} {st st' : Sweeping}
    (hnodup : (rows.map holder).Nodup)
    (hlane : ∀ row ∈ rows, ∃ p, st.db.holding row.holder = some p ∧ p.lane = row.lane)
    (h : rows.foldlM (Sweeping.sweep now observed) st = .ok st') :
    Sweeps now observed st (rows.map holder) st' := by
  induction rows generalizing st with
  | nil =>
    cases h
    exact ⟨fun k => by simp, by simp, rfl, .refl _⟩
  | cons row rows ih =>
    obtain ⟨mid, hrow, hrest⟩ := foldlM_cons_ok h
    obtain ⟨hnotin, hnodup'⟩ := nodup_cons.mp hnodup
    obtain ⟨_, hp, hpl⟩ := hlane row mem_cons_self
    have h₁ := Sweeps.of_sweep hp hpl hrow
    have h₂ := ih hnodup' (fun r hr => by
      obtain ⟨q, hq, hql⟩ := hlane r (mem_cons_of_mem _ hr)
      exact ⟨q, (h₁.recorded.holding _).trans hq, hql⟩) hrest
    -- the later rows are other holders' rows, which the first pass left alone
    have hsame : ∀ k, k ∈ rows.map holder → mid.db.permits.get? k = st.db.permits.get? k := by
      intro _ hk
      rw [h₁.permits, if_neg]
      rintro ⟨hk', -⟩
      rw [mem_singleton] at hk'
      exact hnotin (hk' ▸ hk)
    have hmeta : mid.db.permitMeta = st.db.permitMeta := by rw [h₁.rest]
    refine ⟨fun k => ?_, ?_, ?_, h₁.recorded.trans h₂.recorded⟩
    · rw [h₂.permits, hmeta]
      by_cases hk : k ∈ rows.map holder
      · rw [hsame k hk]
        simp [hk]
      · rw [h₁.permits]
        simp [hk]
    · rw [h₂.marked, h₁.marked, append_assoc]
      congr 1
      have hfilter : (rows.map holder).filter (mid.db.sweeps observed)
          = (rows.map holder).filter (st.db.sweeps observed) :=
        filter_congr fun k hk => by simp only [sweeps, hsame k hk]
      rw [hfilter, ← filter_append]
      rfl
    · rw [h₂.rest, h₁.rest]

/-! ## A whole reconcile -/

namespace PermitLedger

section Reconcile

variable {alive : List AliveAttempt} {stagedRotations : List StagedRotation}
  {stagedReleases : List StagedRelease} {stagedAcquisitions : List StagedAcquisition}
  {db db' : PermitLedger} {report : ReconcileReport}

theorem reconcileTx_commit
    (h : reconcileTx alive stagedRotations stagedReleases stagedAcquisitions now db
      = .commit report db') :
    ∃ st swept,
      ObservesAll ⟨db, ∅, []⟩
        (listedHolders alive stagedRotations stagedReleases stagedAcquisitions) st
      ∧ Sweeps now st.observed ⟨st.db, []⟩ (st.db.permits.rows.map holder) swept
      ∧ report = ⟨swept.markedUncertain.insertionSort (· ≤ ·), st.confirmed.insertionSort (· ≤ ·)⟩
      ∧ db' = { swept.db with
          permitMeta :=
            { swept.db.permitMeta with
              reconciledGeneration := swept.db.permitMeta.generation } } := by
  unfold reconcileTx at h
  split at h
  · cases h
  rename_i st hobs
  split at h
  · cases h
  rename_i swept hsweep
  cases h
  refine ⟨st, swept, observesAll_of_observeAll hobs, ?_, rfl, rfl⟩
  refine Sweeps.of_foldlM st.db.permits.keyNodup (fun row hrow => ?_) hsweep
  exact ⟨_, holding_of_get? (Table.get?_of_mem hrow), rfl⟩

theorem reconcileTx_not_drop :
    reconcileTx alive stagedRotations stagedReleases stagedAcquisitions now db ≠ .drop report := by
  intro h
  unfold reconcileTx at h
  repeat' split at h
  all_goals cases h

section

variable
  (h : reconcileTx alive stagedRotations stagedReleases stagedAcquisitions now db
    = .commit report db')
include h

theorem reconcileTx_recorded : OnlyRecorded db db' := by
  obtain ⟨_, _, hobs, hsweep, -, rfl⟩ := reconcileTx_commit h
  exact (hobs.recorded.trans hsweep.recorded).trans (.of_views (fun _ => rfl) rfl)

theorem reconcileTx_permitMeta :
    db'.permitMeta = { db.permitMeta with reconciledGeneration := db.permitMeta.generation } := by
  obtain ⟨_, swept, hobs, hsweep, -, rfl⟩ := reconcileTx_commit h
  have hmeta : swept.db.permitMeta = db.permitMeta := by rw [hsweep.rest, hobs.rest]
  simp only [hmeta]

/-- Rows after a reconcile: swept when nobody listed the holder, else as before. -/
theorem reconcileTx_permits (k : Holder) :
    db'.permits.get? k
      = if k ∈ listedHolders alive stagedRotations stagedReleases stagedAcquisitions then
          db.permits.get? k
        else (db.permits.get? k).map fun row => row.swept db.permitMeta.generation now.toI64 := by
  obtain ⟨st, _, hobs, hsweep, -, rfl⟩ := reconcileTx_commit h
  have hpermits : st.db.permits = db.permits := by rw [hobs.rest]
  have hmeta : st.db.permitMeta = db.permitMeta := by rw [hobs.rest]
  have hseen := hobs.mem_observed k
  have hget := hsweep.permits k
  simp only [hpermits, hmeta, hseen, Table.mem_keys_iff] at hget
  rw [hget]
  cases hrow : db.permits.get? k with
  | none => simp
  | some =>
    by_cases hlisted :
        k ∈ listedHolders alive stagedRotations stagedReleases stagedAcquisitions <;> simp [hlisted]

theorem reconcileTx_markedUncertain :
    report.markedUncertain.Nodup
      ∧ ∀ k, k ∈ report.markedUncertain
        ↔ k ∉ listedHolders alive stagedRotations stagedReleases stagedAcquisitions
          ∧ ∃ row, db.permits.get? k = some row ∧ row.state ≠ .cleaning := by
  obtain ⟨st, swept, hobs, hsweep, rfl, -⟩ := reconcileTx_commit h
  have hpermits : st.db.permits = db.permits := by rw [hobs.rest]
  have hperm := perm_insertionSort (· ≤ ·) swept.markedUncertain
  have hmarked := hsweep.marked
  simp only [nil_append] at hmarked
  refine ⟨hperm.nodup_iff.mpr ?_, fun k => ?_⟩
  · rw [hmarked]
    exact st.db.permits.keyNodup.filter _
  have hseen := hobs.mem_observed k
  rw [hperm.mem_iff, hmarked, mem_filter, Table.mem_keys_iff]
  simp only [sweeps, hpermits, hseen]
  cases hrow : db.permits.get? k with
  | none | some row => simp

theorem reconcileTx_confirmed :
    report.confirmed.Nodup
      ∧ ∀ k, k ∈ report.confirmed
        ↔ k ∈ listedHolders alive stagedRotations stagedReleases stagedAcquisitions
          ∧ (db.permits.get? k).isSome = true := by
  obtain ⟨st, _, hobs, -, rfl, -⟩ := reconcileTx_commit h
  have hperm := perm_insertionSort (· ≤ ·) st.confirmed
  have hconfirmed := hobs.confirmed
  simp only [nil_append] at hconfirmed
  refine ⟨hperm.nodup_iff.mpr ?_, fun k => ?_⟩
  · rw [hconfirmed]
    exact hobs.nodup.1.filter _
  · rw [hperm.mem_iff, hconfirmed, mem_filter]

end

end Reconcile

/-- A reconcile is all or nothing, and neither loses nor invents occupancy: the
    holders nobody listed become uncertain unless they are cleaning, every
    other row stays exactly as it was, and the report is those two sets. -/
theorem reconcile_exact (ledger : PermitLedger) (alive : List AliveAttempt)
    (stagedRotations : List StagedRotation) (stagedReleases : List StagedRelease)
    (stagedAcquisitions : List StagedAcquisition) (now : UnixTime) :
    let listed := listedHolders alive stagedRotations stagedReleases stagedAcquisitions
    let out := ledger.reconcileAttemptsWithStagedAcquisitions alive stagedRotations
      stagedReleases stagedAcquisitions now
    (∀ error, out.1 = .error error → out.2 = ledger)
      ∧ ∀ report, out.1 = .ok report →
        (∀ k, out.2.holding k = ledger.holding k)
        ∧ (∀ k row, ledger.permits.get? k = some row →
            out.2.permits.get? k
              = some (if k ∉ listed ∧ row.state ≠ .cleaning then
                  row.sweptTo ledger.permitMeta.generation now.toI64
                else row))
        ∧ (∀ k, k ∈ report.markedUncertain
            ↔ k ∉ listed ∧ ∃ row, ledger.permits.get? k = some row ∧ row.state ≠ .cleaning)
        ∧ (∀ k, k ∈ report.confirmed ↔ k ∈ listed ∧ (ledger.permits.get? k).isSome = true)
        ∧ report.markedUncertain.Nodup ∧ report.confirmed.Nodup := by
  intro listed out
  refine ⟨fun error herror => immediate_error herror, fun report hok => ?_⟩
  obtain ⟨db', hbody, hdb⟩ := commit_of_immediate_ok hok (fun _ => reconcileTx_not_drop)
  have hmarked := reconcileTx_markedUncertain hbody
  have hconfirmed := reconcileTx_confirmed hbody
  have hout : out.2 = db' := hdb
  rw [hout]
  refine ⟨(reconcileTx_recorded hbody).holding, fun k row hrow => ?_, hmarked.2, hconfirmed.2,
    hmarked.1, hconfirmed.1⟩
  rw [reconcileTx_permits hbody k, hrow]
  by_cases hlisted : k ∈ listed
  · simp [listed, hlisted]
  · simp [listed, hlisted, swept]

end PermitLedger

end Velnor.Control
