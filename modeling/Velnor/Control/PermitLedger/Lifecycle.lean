/-
  What the ledger is for, one holder at a time.

  Abstractly a holder is a place in the queue (`Queued`) and possibly a held
  permit (`Holding`), and only five things can ever happen to it: its demand
  moves while it holds nothing, it is granted a permit, its demand moves while
  it holds one, its permit changes owner token, or its permit is released.
  `LifeStep` is that relation; its labels are the events that change occupancy
  or ownership.

  `Refines` lifts it to the database: a transaction does one labelled thing to
  one holder and at most unlabelled things to the rest.  Each transaction of
  the ledger is shown to refine it (next to its definition), and the run
  properties are then proved here once, of the relation.
-/
import Velnor.Control.PermitLedger.Schema

namespace Velnor.Control

open Relational PermitLedger Option Table

/-- A held permit, up to the columns that ownership does not depend on. -/
structure Holding where
  lane : PermitLane
  token : Token
  deriving DecidableEq, Repr

/-- A demand, up to its place in the queue. -/
structure Queued where
  lane : PermitLane
  state : DemandState
  deriving DecidableEq, Repr

/-- One holder as the ledger sees it. -/
structure View where
  permit : Option Holding
  demand : Option Queued
  deriving DecidableEq, Repr

/-- What one step did to one holder. -/
inductive LifeLabel where
  | internal
  | grant (token : Token)
  | retoken (token : Token)
  | release (token : Token)
  deriving DecidableEq, Repr

/-! ## The lifecycle relation -/

/-- Moves of a demand whose holder has no permit. -/
inductive Queue : Option Queued → Option Queued → Prop where
  | same (d : Option Queued) : Queue d d
  | enter (lane : PermitLane) : Queue none (some ⟨lane, .eligible⟩)
  | rejoin (lane : PermitLane) {s : DemandState} (hs : s.closed = false) :
      Queue (some ⟨lane, s⟩) (some ⟨lane, .eligible⟩)
  | park (lane : PermitLane) : Queue (some ⟨lane, .eligible⟩) (some ⟨lane, .waiting⟩)
  | enterClosed (lane : PermitLane) {s : DemandState} (hs : s.closed = true) :
      Queue none (some ⟨lane, s⟩)
  | close (lane : PermitLane) (s : DemandState) {s' : DemandState} (hs : s'.closed = true) :
      Queue (some ⟨lane, s⟩) (some ⟨lane, s'⟩)

/-- Moves of a demand whose holder keeps a permit of `lane`.  The last two
    start from states that `Consistent` excludes. -/
inductive Settle (lane : PermitLane) : Option Queued → Option Queued → Prop where
  | same (d : Option Queued) : Settle lane d d
  | record {s : DemandState} (hs : s = .granted ∨ s.closed = true) :
      Settle lane none (some ⟨lane, s⟩)
  | promote (l : PermitLane) : Settle lane (some ⟨l, .eligible⟩) (some ⟨l, .granted⟩)
  | close (l : PermitLane) (s : DemandState) {s' : DemandState} (hs : s'.closed = true) :
      Settle lane (some ⟨l, s⟩) (some ⟨l, s'⟩)
  | revive (l : PermitLane) : Settle lane (some ⟨l, .waiting⟩) (some ⟨l, .eligible⟩)
  | park (l : PermitLane) : Settle lane (some ⟨l, .eligible⟩) (some ⟨l, .waiting⟩)

/-- What becomes of a demand when its holder's permit of `lane` is released. -/
inductive Discharge (lane : PermitLane) : Option Queued → Option Queued → Prop where
  | unrecorded : Discharge lane none none
  | record {s : DemandState} (hs : s.closed = true) : Discharge lane none (some ⟨lane, s⟩)
  | close (l : PermitLane) (s : DemandState) {s' : DemandState} (hs : s'.closed = true) :
      Discharge lane (some ⟨l, s⟩) (some ⟨l, s'⟩)
  | requeue (l : PermitLane) {s : DemandState} (hs : s = .eligible ∨ s = .granted) :
      Discharge lane (some ⟨l, s⟩) (some ⟨l, .eligible⟩)
  | keep (l : PermitLane) {s : DemandState} (hs : s ≠ .eligible ∧ s ≠ .granted) :
      Discharge lane (some ⟨l, s⟩) (some ⟨l, s⟩)

/-- Everything one ledger transaction can do to one holder. -/
inductive LifeStep : View → LifeLabel → View → Prop where
  | unheld {d d' : Option Queued} (h : Queue d d') : LifeStep ⟨none, d⟩ .internal ⟨none, d'⟩
  | grant {d : Option Queued} {lane : PermitLane} {token : Token}
      (h : ∀ q, d = some q → q.lane = lane ∧ q.state.closed = false) :
      LifeStep ⟨none, d⟩ (.grant token) ⟨some ⟨lane, token⟩, some ⟨lane, .granted⟩⟩
  | held {p : Holding} {d d' : Option Queued} (h : Settle p.lane d d') :
      LifeStep ⟨some p, d⟩ .internal ⟨some p, d'⟩
  | retoken {p : Holding} {d d' : Option Queued} {token : Token} (h : Settle p.lane d d') :
      LifeStep ⟨some p, d⟩ (.retoken token) ⟨some ⟨p.lane, token⟩, d'⟩
  | release {p : Holding} {d d' : Option Queued} (h : Discharge p.lane d d') :
      LifeStep ⟨some p, d⟩ (.release p.token) ⟨none, d'⟩

theorem LifeStep.refl (v : View) : LifeStep v .internal v := by
  obtain ⟨p, d⟩ := v
  cases p with
  | none => exact .unheld (.same d)
  | some => exact .held (.same d)

variable {d d' : Option Queued} {v v' : View} {token : Token} {label : LifeLabel}
  {lane : PermitLane}

/-! ### What a label says about the permit -/

theorem LifeStep.permit_of_internal (h : LifeStep v .internal v') : v'.permit = v.permit := by
  cases h with
  | unheld _ | held _ => rfl

theorem LifeStep.permit_of_grant (h : LifeStep v (.grant token) v') :
    v.permit = none ∧ ∃ lane, v'.permit = some ⟨lane, token⟩ := by
  cases h with
  | grant => exact ⟨rfl, _, rfl⟩

/-- Only a grant creates a permit. -/
theorem LifeStep.permit_eq_none (h : LifeStep v label v') (hlabel : ∀ token, label ≠ .grant token)
    (hnone : v.permit = none) : v'.permit = none := by
  cases h with
  | unheld => rfl
  | grant => exact absurd rfl (hlabel _)
  | held _ | retoken _ => cases hnone
  | release => rfl

theorem LifeStep.permit_of_retoken (h : LifeStep v (.retoken token) v') :
    ∃ p, v.permit = some p ∧ v'.permit = some ⟨p.lane, token⟩ := by
  cases h with
  | retoken => exact ⟨_, rfl, rfl⟩

theorem LifeStep.permit_of_release (h : LifeStep v (.release token) v') :
    (∃ lane, v.permit = some ⟨lane, token⟩) ∧ v'.permit = none := by
  cases h with
  | release => exact ⟨⟨_, rfl⟩, rfl⟩

/-! ## Invariants of the relation -/

/-- A held permit has a demand of its lane that cannot head-block the queue,
    and a granted demand has a permit. -/
def Consistent (v : View) : Prop :=
  match v.permit with
  | some p => ∃ s, v.demand = some ⟨p.lane, s⟩ ∧ (s = .granted ∨ s.closed = true)
  | none => ∀ lane, v.demand ≠ some ⟨lane, .granted⟩

theorem Consistent.of_held (h : Consistent v) {p : Holding} (hp : v.permit = some p) :
    ∃ s, v.demand = some ⟨p.lane, s⟩ ∧ (s = .granted ∨ s.closed = true) := by
  unfold Consistent at h
  rw [hp] at h
  exact h

theorem Consistent.of_unheld (h : Consistent v) (hp : v.permit = none) :
    ∀ lane, v.demand ≠ some ⟨lane, .granted⟩ := by
  unfold Consistent at h
  rw [hp] at h
  exact h

theorem Queued.ne_granted {l : PermitLane} {s : DemandState} (hs : s.closed = true) :
    some (Queued.mk l s) ≠ some ⟨lane, .granted⟩ := by
  simp only [ne_eq, some.injEq, Queued.mk.injEq, not_and]
  rintro - rfl
  cases hs

theorem Queue.not_granted (h : Queue d d') (hd : ∀ lane, d ≠ some ⟨lane, .granted⟩) :
    ∀ lane, d' ≠ some ⟨lane, .granted⟩ := by
  intro lane hd'
  cases h with
  | same => exact hd lane hd'
  | enter l | rejoin l hs | park l => simp at hd'
  | enterClosed l hs | close l s hs => exact Queued.ne_granted hs hd'

theorem Settle.settled (h : Settle lane d d')
    (hd : ∃ s, d = some ⟨lane, s⟩ ∧ (s = .granted ∨ s.closed = true)) :
    ∃ s, d' = some ⟨lane, s⟩ ∧ (s = .granted ∨ s.closed = true) := by
  obtain ⟨s, rfl, hs⟩ := hd
  cases h with
  | same => exact ⟨s, rfl, hs⟩
  | promote => exact ⟨.granted, rfl, .inl rfl⟩
  | close _ _ hs' => exact ⟨_, rfl, .inr hs'⟩
  -- the two moves out of a state that a held permit excludes
  | revive | park => simp [DemandState.closed] at hs

theorem Discharge.not_granted (h : Discharge lane d d') : ∀ l, d' ≠ some ⟨l, .granted⟩ := by
  intro _ hd'
  cases h with
  | unrecorded => cases hd'
  | record hs | close _ _ hs => exact Queued.ne_granted hs hd'
  | requeue => simp at hd'
  | keep _ hs =>
    simp only [some.injEq, Queued.mk.injEq] at hd'
    exact hs.2 hd'.2

theorem LifeStep.consistent (h : LifeStep v label v') (hv : Consistent v) : Consistent v' := by
  cases h with
  | unheld hq => exact hq.not_granted hv
  | grant => exact ⟨.granted, rfl, .inl rfl⟩
  | held hs | retoken hs => exact hs.settled hv
  | release hd => exact hd.not_granted

/-- The holder's demand is terminal or cancelled. -/
def View.Closed (v : View) : Prop := ∃ q, v.demand = some q ∧ q.state.closed = true

theorem Settle.closed_of {p : Option Holding} {q : Queued} (h : Settle lane (some q) d')
    (hc : q.state.closed = true) : View.Closed ⟨p, d'⟩ := by
  cases h with
  | same => exact ⟨q, rfl, hc⟩
  | promote => exact absurd hc Bool.false_ne_true
  | close _ _ hs => exact ⟨_, rfl, hs⟩
  | revive | park => exact absurd hc Bool.false_ne_true

/-- A closed demand stays closed, and nothing is granted to it. -/
theorem LifeStep.closed (h : LifeStep v label v') (hv : v.Closed) :
    v'.Closed ∧ ∀ token, label ≠ .grant token := by
  obtain ⟨q, hq, hc⟩ := hv
  cases h with
  | unheld hm =>
    refine ⟨?_, fun _ => by simp⟩
    subst hq
    cases hm with
    | same => exact ⟨q, rfl, hc⟩
    | rejoin _ hs => exact absurd hc (by simp [hs])
    | park => exact absurd hc Bool.false_ne_true
    | close _ _ hs => exact ⟨_, rfl, hs⟩
  -- a grant needs an open demand
  | grant hopen =>
    have h' := (hopen q hq).2
    rw [hc] at h'
    cases h'
  | held hm | retoken hm =>
    refine ⟨?_, fun _ => by simp⟩
    subst hq
    exact hm.closed_of hc
  | release hm =>
    refine ⟨?_, fun _ => by simp⟩
    subst hq
    cases hm with
    | close _ _ hs => exact ⟨_, rfl, hs⟩
    | requeue _ hs => rcases hs with rfl | rfl <;> exact absurd hc Bool.false_ne_true
    | keep => exact ⟨_, rfl, hc⟩

/-! ## Reading a view off the ledger -/

namespace PermitLedger

variable (ledger : PermitLedger)

def holding (holder : Holder) : Option Holding :=
  (ledger.permits.get? holder).map fun row => ⟨row.lane, row.attemptToken⟩

def queued (holder : Holder) : Option Queued :=
  (ledger.demands.get? holder).map fun row => ⟨row.lane, row.state⟩

def view (holder : Holder) : View := ⟨ledger.holding holder, ledger.queued holder⟩

theorem holding_isSome (holder : Holder) :
    (ledger.holding holder).isSome = (ledger.permits.get? holder).isSome :=
  isSome_map

variable {holder : Holder}

theorem holding_eq_none_iff : ledger.holding holder = none ↔ ledger.permits.get? holder = none :=
  map_eq_none_iff

variable {ledger}

theorem holding_of_get? {row : PermitRow} (h : ledger.permits.get? holder = some row) :
    ledger.holding holder = some ⟨row.lane, row.attemptToken⟩ := by
  rw [holding, h]
  rfl

theorem queued_of_get? {row : DemandRow} (h : ledger.demands.get? holder = some row) :
    ledger.queued holder = some ⟨row.lane, row.state⟩ := by
  rw [queued, h]
  rfl

/-- The token column is `UNIQUE`: one token is carried by one holder. -/
theorem holder_eq_of_token {h h' : Holder} {p p' : Holding} (hp : ledger.holding h = some p)
    (hp' : ledger.holding h' = some p') (ht : p.token = p'.token) : h = h' := by
  obtain ⟨_, hrow, rfl⟩ := map_eq_some_iff.mp hp
  obtain ⟨_, hrow', rfl⟩ := map_eq_some_iff.mp hp'
  exact eq_of_uniq hrow hrow' ht

/-- Some permit carries `token`. -/
def carries (ledger : PermitLedger) (token : Token) : Bool :=
  ledger.permits.rows.any fun row => row.attemptToken = token

theorem carries_iff {token : Token} :
    ledger.carries token = true ↔ ∃ h p, ledger.holding h = some p ∧ p.token = token := by
  simp only [carries, List.any_eq_true, decide_eq_true_eq]
  constructor
  · rintro ⟨row, hmem, ht⟩
    exact ⟨row.holder, _, holding_of_get? (get?_of_mem hmem), ht⟩
  · rintro ⟨_, _, hp, ht⟩
    obtain ⟨row, hrow, rfl⟩ := map_eq_some_iff.mp hp
    exact ⟨row, mem_of_get? hrow, ht⟩

/-! ### What each update does to the views -/

variable (ledger)

variable (holder)

variable (state : DemandState) (now : Int) (h : Holder)

@[simp] theorem holding_setDemand :
    (ledger.setDemand holder state now).holding h = ledger.holding h := rfl

@[simp] theorem queued_deleteOwned (token : Token) (h : Holder) :
    (ledger.deleteOwned holder token).queued h = ledger.queued h := rfl

@[simp] theorem queued_setDemandWhere (p : DemandState → Bool) (state : DemandState) (now : Int)
    (h : Holder) :
    (ledger.setDemandWhere holder p state now).queued h
      = if h = holder then
          (ledger.queued holder).map fun q => if p q.state then ⟨q.lane, state⟩ else q
        else ledger.queued h := by
  simp only [queued, setDemandWhere, get?_updateWhere]
  by_cases hh : h = holder
  · rw [if_pos hh, if_pos hh, map_map, map_map]
    congr 1
    funext row
    simp only [Function.comp]
    split <;> rfl
  · rw [if_neg hh, if_neg hh]

@[simp] theorem queued_setDemand :
    (ledger.setDemand holder state now).queued h
      = if h = holder then (ledger.queued holder).map fun q => ⟨q.lane, state⟩
        else ledger.queued h := by
  rw [setDemand]
  simp

@[simp] theorem queued_touchDemand :
    (ledger.touchDemand holder now).queued h = ledger.queued h := by
  simp only [queued, touchDemand, get?_update]
  by_cases hh : h = holder
  · rw [if_pos hh, map_map, hh]
    rfl
  · rw [if_neg hh]

/-- An owned update of unconstrained columns is invisible: it moves no permit
    between lanes or owners. -/
theorem holding_updateOwned (token : Token) (p : PermitState → Bool) {f : PermitRow → PermitRow}
    (hf : ∀ row, (f row).holder = row.holder ∧ (f row).attemptToken = row.attemptToken)
    (hlane : ∀ row, (f row).lane = row.lane) (h : Holder) :
    (ledger.updateOwned holder token p f hf).holding h = ledger.holding h := by
  simp only [holding, updateOwned, get?_updateWhere]
  by_cases hh : h = holder
  · rw [if_pos hh, map_map, hh]
    congr 1
    funext row
    simp only [Function.comp]
    split
    · rw [hlane, (hf row).2]
    · rfl
  · rw [if_neg hh]

@[simp] theorem holding_deleteOwned (token : Token) (h : Holder) :
    (ledger.deleteOwned holder token).holding h
      = if h = holder then (ledger.holding holder).filter fun p => decide (p.token ≠ token)
        else ledger.holding h := by
  simp only [holding, deleteOwned, get?_deleteWhere]
  by_cases hh : h = holder
  · rw [if_pos hh, if_pos hh]
    cases ledger.permits.get? holder with
    | none => rfl
    | some row => by_cases ht : row.attemptToken = token <;> simp [Option.filter, ht]
  · rw [if_neg hh, if_neg hh]

end PermitLedger

/-! ## Transactions as lifecycle steps -/

/-- What one transaction did: nothing a label records, or one labelled step of
    one holder. -/
inductive LedgerEvent where
  | internal
  | on (holder : Holder) (label : LifeLabel)
  deriving DecidableEq, Repr

namespace LedgerEvent

/-- The event as `holder` sees it. -/
def forHolder : LedgerEvent → Holder → LifeLabel
  | .internal, _ => .internal
  | .on holder label, h => if h = holder then label else .internal

def isGrant : LedgerEvent → Bool
  | .on _ (.grant _) => true
  | _ => false

def isRelease : LedgerEvent → Bool
  | .on _ (.release _) => true
  | _ => false

/-- The token the event gives to a permit. -/
def introduced : LedgerEvent → Option Token
  | .on _ (.grant t) | .on _ (.retoken t) => some t
  | _ => none

/-- The event gives `token` to a permit. -/
def introduces (token : Token) (event : LedgerEvent) : Bool := event.introduced == some token

/-- The event releases the permit carrying `token`. -/
def releases (token : Token) : LedgerEvent → Bool
  | .on _ (.release t) => t = token
  | _ => false

@[simp] theorem forHolder_on_self (h : Holder) (label : LifeLabel) :
    (LedgerEvent.on h label).forHolder h = label :=
  if_pos rfl

theorem forHolder_on_ne {holder h : Holder} (hne : h ≠ holder) (label : LifeLabel) :
    (LedgerEvent.on holder label).forHolder h = .internal :=
  if_neg hne

end LedgerEvent

/-- Every holder makes one lifecycle step, labelled as the event says. -/
def Refines (ledger : PermitLedger) (event : LedgerEvent) (ledger' : PermitLedger) : Prop :=
  ∀ h, LifeStep (ledger.view h) (event.forHolder h) (ledger'.view h)

namespace Refines

variable {ledger ledger' : PermitLedger} {event : LedgerEvent}

theorem refl (ledger : PermitLedger) : Refines ledger .internal ledger :=
  fun h => LifeStep.refl (ledger.view h)

theorem on_self {holder : Holder} {label : LifeLabel}
    (h : Refines ledger (.on holder label) ledger') :
    LifeStep (ledger.view holder) label (ledger'.view holder) := by
  have hs := h holder
  rwa [LedgerEvent.forHolder_on_self] at hs

/-- Updates that no view shows may come first. -/
theorem of_view_eq {mid : PermitLedger} (hv : ∀ h, mid.view h = ledger.view h)
    (h : Refines mid event ledger') : Refines ledger event ledger' := by
  intro k
  rw [← hv k]
  exact h k

/-- A transaction that touches no row of either table. -/
theorem of_tables (hp : ledger'.permits = ledger.permits) (hd : ledger'.demands = ledger.demands) :
    Refines ledger .internal ledger' := by
  intro h
  have hv : ledger'.view h = ledger.view h := by
    simp only [view, holding, queued, hp, hd]
  rw [hv]
  exact LifeStep.refl _

/-- A transaction on one holder frames every other one. -/
theorem on_holder {holder : Holder} {label : LifeLabel}
    (hframe : ∀ h, h ≠ holder → ledger'.view h = ledger.view h)
    (hstep : LifeStep (ledger.view holder) label (ledger'.view holder)) :
    Refines ledger (.on holder label) ledger' := by
  intro h
  by_cases hh : h = holder
  · subst hh
    rw [LedgerEvent.forHolder_on_self]
    exact hstep
  · rw [LedgerEvent.forHolder_on_ne hh, hframe h hh]
    exact LifeStep.refl _

/-- A transaction that only moves one holder's demand. -/
theorem on_demand (holder : Holder)
    (hp : ∀ h, ledger'.holding h = ledger.holding h)
    (hframe : ∀ h, h ≠ holder → ledger'.queued h = ledger.queued h)
    (hq : ledger.holding holder = none → Queue (ledger.queued holder) (ledger'.queued holder))
    (hs : ∀ p, ledger.holding holder = some p →
      Settle p.lane (ledger.queued holder) (ledger'.queued holder)) :
    Refines ledger .internal ledger' := by
  intro h
  rw [view, view, hp h]
  by_cases hh : h = holder
  · subst hh
    cases hholding : ledger.holding h with
    | none => exact .unheld (hq hholding)
    | some p => exact .held (hs p hholding)
  · rw [hframe h hh]
    exact LifeStep.refl _

/-- Closing a demand is a step whether or not the holder has a permit. -/
theorem close_demand (ledger : PermitLedger) (holder : Holder) (p : DemandState → Bool)
    {state : DemandState} (hs : state.closed = true) (now : Int) :
    Refines ledger .internal (ledger.setDemandWhere holder p state now) := by
  -- the same move is a step of both kinds, so the permit need not be looked at
  have hmove : ∀ lane, Queue (ledger.queued holder)
        ((ledger.setDemandWhere holder p state now).queued holder)
      ∧ Settle lane (ledger.queued holder)
        ((ledger.setDemandWhere holder p state now).queued holder) := by
    intro _
    rw [queued_setDemandWhere, if_pos rfl]
    rcases ledger.queued holder with _ | ⟨l, s⟩
    · exact ⟨.same none, .same none⟩
    · cases hp : p s with
      | true => simpa [hp] using And.intro (Queue.close l s hs) (Settle.close l s hs)
      | false => simpa [hp] using And.intro (Queue.same _) (Settle.same _)
  refine on_demand holder (fun _ => rfl) (fun k hk => ?_)
    (fun _ => (hmove .native).1) (fun q _ => (hmove q.lane).2)
  rw [queued_setDemandWhere, if_neg hk]

theorem consistent (h : Refines ledger event ledger') (hc : ∀ h, Consistent (ledger.view h)) :
    ∀ h, Consistent (ledger'.view h) :=
  fun k => (h k).consistent (hc k)

/-! ### Occupancy -/

variable {k : Holder}

theorem holding_of_internal (h : Refines ledger event ledger') (hk : event.forHolder k = .internal)
    : ledger'.holding k = ledger.holding k := by
  have hs := h k
  rw [hk] at hs
  exact hs.permit_of_internal

theorem isSome_of_internal (h : Refines ledger event ledger') (hk : event.forHolder k = .internal) :
    (ledger'.permits.get? k).isSome = (ledger.permits.get? k).isSome := by
  rw [← holding_isSome, ← holding_isSome, h.holding_of_internal hk]

theorem size_of_grant (h : Refines ledger (.on k (.grant token)) ledger') :
    ledger'.permits.size = ledger.permits.size + 1 := by
  obtain ⟨hnone, _, hsome⟩ := h.on_self.permit_of_grant
  -- the key is new, and every other key is as it was
  refine size_eq_succ_of_keys (k := k) ?_ ?_ fun k' hk' =>
    h.isSome_of_internal (LedgerEvent.forHolder_on_ne hk' _)
  · rw [← holding_isSome]
    exact isSome_eq_false_iff.mpr (isNone_iff_eq_none.mpr hnone)
  · rw [← holding_isSome]
    exact isSome_iff_exists.mpr ⟨_, hsome⟩

theorem size_of_release (h : Refines ledger (.on k (.release token)) ledger') :
    ledger.permits.size = ledger'.permits.size + 1 := by
  obtain ⟨⟨_, hsome⟩, hnone⟩ := h.on_self.permit_of_release
  refine size_eq_succ_of_keys (k := k) ?_ ?_ fun k' hk' =>
    (h.isSome_of_internal (LedgerEvent.forHolder_on_ne hk' _)).symm
  · rw [← holding_isSome]
    exact isSome_eq_false_iff.mpr (isNone_iff_eq_none.mpr hnone)
  · rw [← holding_isSome]
    exact isSome_iff_exists.mpr ⟨_, hsome⟩

theorem size_of_retoken (h : Refines ledger (.on k (.retoken token)) ledger') :
    ledger'.permits.size = ledger.permits.size := by
  refine size_eq_of_keys fun k' => ?_
  by_cases hk : k' = k
  · subst hk
    obtain ⟨p, hbefore, hafter⟩ := h.on_self.permit_of_retoken
    have hbefore' : ledger.holding k' = some p := hbefore
    have hafter' : ledger'.holding k' = some ⟨p.lane, token⟩ := hafter
    rw [← holding_isSome, ← holding_isSome, hbefore', hafter']
    rfl
  · exact h.isSome_of_internal (LedgerEvent.forHolder_on_ne hk _)

/-- Rows move by one at a grant or a release, and at nothing else. -/
theorem occupancy (h : Refines ledger event ledger') :
    ledger'.permits.size + (if event.isRelease then 1 else 0)
      = ledger.permits.size + (if event.isGrant then 1 else 0) := by
  cases event with
  | internal => exact size_eq_of_keys fun k => h.isSome_of_internal rfl
  | on _ label =>
    cases label with
    | internal =>
      refine size_eq_of_keys fun k' => h.isSome_of_internal ?_
      simp [LedgerEvent.forHolder]
    | grant => exact h.size_of_grant
    | retoken => exact h.size_of_retoken
    | release => exact h.size_of_release.symm

/-! ### Tokens -/

/-- A token carried after the step was carried before it, or the step
    introduced it. -/
theorem carries_or_introduces (h : Refines ledger event ledger') {p : Holding}
    (hp : ledger'.holding k = some p) :
    ledger.holding k = some p ∨ event.introduces p.token = true := by
  cases event with
  | internal => exact .inl (h.holding_of_internal rfl ▸ hp)
  | on k' label =>
    by_cases hk : k = k'
    · subst hk
      have hs := h.on_self
      cases label with
      | internal => exact .inl (hs.permit_of_internal.symm.trans hp)
      | grant =>
        obtain ⟨-, _, hafter⟩ := hs.permit_of_grant
        have he := some.inj (hp.symm.trans hafter)
        simp [LedgerEvent.introduces, LedgerEvent.introduced, he]
      | retoken =>
        obtain ⟨_, -, hafter⟩ := hs.permit_of_retoken
        have he := some.inj (hp.symm.trans hafter)
        simp [LedgerEvent.introduces, LedgerEvent.introduced, he]
      | release => cases hp.symm.trans hs.permit_of_release.2
    · exact .inl (h.holding_of_internal (LedgerEvent.forHolder_on_ne hk _) ▸ hp)

theorem carries_imp (h : Refines ledger event ledger') (hc : ledger'.carries token = true) :
    ledger.carries token = true ∨ event.introduces token = true := by
  obtain ⟨k, p, hp, rfl⟩ := carries_iff.mp hc
  rcases h.carries_or_introduces hp with hbefore | hintro
  · exact .inl (carries_iff.mpr ⟨k, p, hbefore, rfl⟩)
  · exact .inr hintro

/-- A release takes its token out of the ledger: no other row can carry it. -/
theorem not_carries_of_release (h : Refines ledger (.on k (.release token)) ledger') :
    ledger.carries token = true ∧ ledger'.carries token = false := by
  obtain ⟨⟨lane, hbefore⟩, hafter⟩ := h.on_self.permit_of_release
  have hbefore' : ledger.holding k = some ⟨lane, token⟩ := hbefore
  have hafter' : ledger'.holding k = none := hafter
  refine ⟨carries_iff.mpr ⟨k, _, hbefore', rfl⟩, ?_⟩
  rw [Bool.eq_false_iff]
  intro hc
  obtain ⟨k', _, hp, ht⟩ := carries_iff.mp hc
  -- a second carrier would share the `UNIQUE` token
  by_cases hk : k' = k
  · rw [hk, hafter'] at hp
    cases hp
  · rw [h.holding_of_internal (LedgerEvent.forHolder_on_ne hk _)] at hp
    exact hk (holder_eq_of_token hp hbefore' ht)

/-- A token is released at most as often as it was introduced. -/
theorem token_balance (h : Refines ledger event ledger') (token : Token) :
    (if ledger'.carries token then 1 else 0) + (if event.releases token then 1 else 0)
      ≤ (if ledger.carries token then 1 else 0) + (if event.introduces token then 1 else 0) := by
  cases hrel : event.releases token with
  | false =>
    cases hafter : ledger'.carries token with
    | false => simp
    | true => rcases h.carries_imp hafter with hc | hi <;> simp [*]
  | true =>
    -- only a release event releases, and then the row is the carrier
    unfold LedgerEvent.releases at hrel
    split at hrel
    · rename_i t
      have ht : t = token := of_decide_eq_true hrel
      subst ht
      obtain ⟨hbefore, hafter⟩ := h.not_carries_of_release
      simp [hbefore, hafter]
    · cases hrel

end Refines

/-! ## Calls -/

/-- One call: a lifecycle step of every holder that rewrites the permit of one
    at most. -/
structure Moves (target : Option Holder) (event : LedgerEvent) (db db' : PermitLedger) : Prop
    extends Touches target db db' where
  refines : Refines db event db'

namespace Moves

variable {target : Option Holder} {ledger : PermitLedger} {α : Type}
  {body : PermitLedger → TxEnd PermitLedger LedgerError α}

theorem refl (target : Option Holder) (ledger : PermitLedger) :
    Moves target .internal ledger ledger := ⟨.refl target ledger, .refl ledger⟩

/-- Only a commit can be a labelled step: what is rolled back is none. -/
theorem immediate {event : Except LedgerError α → LedgerEvent}
    (hcommit : ∀ value db', body ledger = .commit value db' →
      Moves target (event (.ok value)) ledger db')
    (hdrop : ∀ value, body ledger = .drop value → event (.ok value) = .internal)
    (hfail : ∀ error, event (.error error) = .internal) :
    Moves target (event (Relational.immediate ledger body).1) ledger
      (Relational.immediate ledger body).2 := by
  cases hbody : body ledger with
  | commit value db' =>
    rw [immediate_of_commit hbody]
    exact hcommit value db' hbody
  | drop value =>
    rw [immediate_of_drop hbody, hdrop value hbody]
    exact refl target ledger
  | fail error =>
    rw [immediate_of_fail hbody, hfail error]
    exact refl target ledger

theorem immediate_internal
    (hcommit : ∀ value db', body ledger = .commit value db' → Moves target .internal ledger db') :
    Moves target .internal ledger (Relational.immediate ledger body).2 :=
  immediate_of_commits (P := Moves target .internal ledger) (refl target ledger) hcommit

end Moves

end Velnor.Control
