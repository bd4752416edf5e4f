/-
  Immediate transactions and runs of them.

  A transaction body works on a private copy of the database and ends in one
  of three ways: it commits, it returns a value without committing (the handle
  is dropped and the copy is discarded), or it fails.  Only the first changes
  the database, and no other transaction observes the copy, so a run of a
  system of transactions by any number of processes is a list of them.
-/
import Mathlib

namespace Relational

open List

universe u v w

/-! ## Transactions -/

/-- How the body of a transaction ends. -/
inductive TxEnd (σ : Type u) (ε : Type v) (α : Type w) where
  /-- The working copy `db` becomes the database. -/
  | commit (value : α) (db : σ)
  /-- A value is returned, the working copy is rolled back. -/
  | drop (value : α)
  /-- An error is returned, the working copy is rolled back. -/
  | fail (error : ε)

variable {σ : Type u} {ε : Type v} {α : Type w}

/-- Run `body` as one immediate transaction on `db`. -/
def immediate (db : σ) (body : σ → TxEnd σ ε α) : Except ε α × σ :=
  match body db with
  | .commit value db' => (.ok value, db')
  | .drop value => (.ok value, db)
  | .fail error => (.error error, db)

variable {db : σ} {body : σ → TxEnd σ ε α} {value : α}

theorem immediate_of_commit {db' : σ} (h : body db = .commit value db') :
    immediate db body = (.ok value, db') := by
  rw [immediate, h]

theorem immediate_of_drop (h : body db = .drop value) : immediate db body = (.ok value, db) := by
  rw [immediate, h]

variable {s s' : σ} {ι : Type*} {is : List ι} {f : σ → ι → Except ε σ} {error : ε}

theorem immediate_of_fail (h : body db = .fail error) : immediate db body = (.error error, db) := by
  rw [immediate, h]

/-- A transaction that answers with an error has changed nothing. -/
theorem immediate_error (h : (immediate db body).1 = .error error) :
    (immediate db body).2 = db := by
  cases hb : body db with
  | commit => rw [immediate_of_commit hb] at h; cases h
  | drop => rw [immediate_of_drop hb] at h; cases h
  | fail => rw [immediate_of_fail hb]

/-- An answer that no rolled back body gives was committed. -/
theorem commit_of_immediate_ok (h : (immediate db body).1 = .ok value)
    (hdrop : ∀ v, body db ≠ .drop v) :
    ∃ db', body db = .commit value db' ∧ (immediate db body).2 = db' := by
  cases hb : body db with
  | commit _ db' =>
    rw [immediate_of_commit hb] at h ⊢
    cases h
    exact ⟨db', rfl, rfl⟩
  | drop value' => exact absurd hb (hdrop value')
  | fail =>
    rw [immediate_of_fail hb] at h
    cases h

/-- A property of the database that every commit keeps, the transaction keeps. -/
theorem immediate_of_commits {P : σ → Prop} (h : P db)
    (hcommit : ∀ value db', body db = .commit value db' → P db') : P (immediate db body).2 := by
  cases hb : body db with
  | commit value db' =>
    rw [immediate_of_commit hb]
    exact hcommit value db' hb
  | drop =>
    rw [immediate_of_drop hb]
    exact h
  | fail =>
    rw [immediate_of_fail hb]
    exact h

theorem immediate_unchanged (h : ∀ value db', body db = .commit value db' → db' = db) :
    (immediate db body).2 = db :=
  immediate_of_commits (P := (· = db)) rfl h

theorem bind_ok {β : Type*} {x : Except ε β} {f : β → Except ε α} {a : α}
    (h : x.bind f = .ok a) : ∃ b, x = .ok b ∧ f b = .ok a := by
  cases x with
  | error => cases h
  | ok b => exact ⟨b, rfl, h⟩

theorem ok_of_any {x : Except ε α} {p : α → Bool} (h : x.toOption.any p = true) :
    ∃ a, x = .ok a ∧ p a = true := by
  cases x with
  | error => cases h
  | ok a => exact ⟨a, rfl, h⟩

/-- A pass of a loop inside a transaction that went through. -/
theorem foldlM_cons_ok {i : ι} (h : (i :: is).foldlM f s = .ok s') :
    ∃ t, f s i = .ok t ∧ is.foldlM f t = .ok s' := by
  exact bind_ok h

/-- A loop that may fail keeps what every turn of it keeps; `P` sees the items
    taken so far. -/
theorem foldlM_invariant {P : List ι → σ → Prop}
    (hstep : ∀ done s i t, P done s → f s i = .ok t → P (done ++ [i]) t) (h₀ : P [] s)
    (h : is.foldlM f s = .ok s') : P is s' := by
  suffices hgen : ∀ is done s, P done s → is.foldlM f s = .ok s' → P (done ++ is) s' from
    hgen is [] s h₀ h
  intro is
  induction is with
  | nil =>
    intro _ _ _ hs
    cases hs
    rwa [append_nil]
  | cons i _ ih =>
    intro done s hP hs
    obtain ⟨t, ht, hrest⟩ := foldlM_cons_ok hs
    rw [append_cons]
    exact ih _ t (hstep done s i t hP ht) hrest

/-! ## Runs -/

section Runs

variable {ι : Type v} (step : σ → ι → σ)

/-- The state after the steps `is`, in that order. -/
def run (s : σ) (is : List ι) : σ := is.foldl step s

@[simp] theorem run_nil (s : σ) : run step s [] = s := rfl

@[simp] theorem run_cons (s : σ) (i : ι) (is : List ι) :
    run step s (i :: is) = run step (step s i) is := rfl

theorem run_append (s : σ) (is js : List ι) : run step s (is ++ js) = run step (run step s is) js :=
  foldl_append

/-- Every step of the run satisfies `P` in the state it is taken from. -/
def Along (P : σ → ι → Prop) : σ → List ι → Prop
  | _, [] => True
  | s, i :: is => P s i ∧ Along P (step s i) is

instance decidableAlong (P : σ → ι → Prop) [∀ s i, Decidable (P s i)] :
    ∀ s is, Decidable (Along step P s is)
  | _, [] => inferInstanceAs (Decidable True)
  | s, i :: is =>
    have := decidableAlong P (step s i) is
    inferInstanceAs (Decidable (P s i ∧ Along step P (step s i) is))

/-- What `obs` sees of each step, in the state the step is taken from. -/
def trace {ω : Type*} (obs : σ → ι → ω) : σ → List ι → List ω
  | _, [] => []
  | s, i :: is => obs s i :: trace obs (step s i) is

variable {step}

variable {s : σ} {is : List ι} {I : σ → Prop}

theorem along_append {P : σ → ι → Prop} {js : List ι} :
    Along step P s (is ++ js) ↔ Along step P s is ∧ Along step P (run step s is) js := by
  induction is generalizing s with
  | nil => simp [Along]
  | cons _ _ ih => simp only [cons_append, Along, run_cons, ih, and_assoc]

/-- What holds before the run, and is kept by each step, holds after it. -/
theorem run_preserves (hstep : ∀ s i, I s → I (step s i)) (h : I s) (is : List ι) :
    I (run step s is) := by
  induction is generalizing s with
  | nil => exact h
  | cons i _ ih => exact ih (hstep s i h)

/-- The same for runs whose steps all meet a side condition. -/
theorem run_preserves_along {P : σ → ι → Prop} (hstep : ∀ s i, P s i → I s → I (step s i)) (h : I s)
    (hP : Along step P s is) : I (run step s is) := by
  induction is generalizing s with
  | nil => exact h
  | cons i _ ih => exact ih (hstep s i hP.1 h) hP.2

/-- What holds until a marked step, over a run that keeps `J`. -/
theorem run_until {J : σ → Prop} {M : σ → ι → Prop} (hJ : ∀ s i, J s → J (step s i))
    (hstep : ∀ s i, J s → I s → I (step s i) ∨ M s i) (hs : J s) (h : I s) (is : List ι) :
    I (run step s is) ∨ ∃ a i b, is = a ++ i :: b ∧ I (run step s a) ∧ M (run step s a) i := by
  induction is generalizing s with
  | nil => exact .inl h
  | cons i is ih =>
    rcases hstep s i hs h with hnext | hmark
    · rcases ih (hJ s i hs) hnext with hend | ⟨a, i', b, rfl, hmark⟩
      · exact .inl hend
      · exact .inr ⟨i :: a, i', b, rfl, hmark⟩
    · exact .inr ⟨[], i, is, rfl, h, hmark⟩

theorem trace_append {ω : Type*} {obs : σ → ι → ω} {js : List ι} :
    trace step obs s (is ++ js) = trace step obs s is ++ trace step obs (run step s is) js := by
  induction is generalizing s with
  | nil => rfl
  | cons _ _ ih => simp only [cons_append, trace, run_cons, ih]

section Simulation

variable {σ' : Type*} {ω ω' : Type*} {step' : σ' → ι → σ'} {obs : σ → ι → ω} {obs' : σ' → ι → ω'}
  {R : σ → σ' → Prop} {s : σ} {s' : σ'}

section

variable (hstep : ∀ s s' i, R s s' → R (step s i) (step' s' i))
include hstep

/-- Two machines in step stay in step. -/
theorem run_sim (h : R s s') (is : List ι) : R (run step s is) (run step' s' is) := by
  induction is generalizing s s' with
  | nil => exact h
  | cons i _ ih => exact ih (hstep s s' i h)

/-- What is seen of one is related to what is seen of the other, at each step. -/
theorem trace_sim {Q : ω → ω' → Prop} (hobs : ∀ s s' i, R s s' → Q (obs s i) (obs' s' i))
    (h : R s s') (is : List ι) : List.Forall₂ Q (trace step obs s is) (trace step' obs' s' is) := by
  induction is generalizing s s' with
  | nil => exact .nil
  | cons i _ ih => exact .cons (hobs s s' i h) (ih (hstep s s' i h))

theorem trace_eq_of_sim {seen : σ' → ι → ω} (hobs : ∀ s s' i, R s s' → obs s i = seen s' i)
    (h : R s s') (is : List ι) : trace step obs s is = trace step' seen s' is := by
  induction is generalizing s s' with
  | nil => rfl
  | cons i _ ih => rw [trace, trace, hobs s s' i h, ih (hstep s s' i h)]

end

end Simulation

section Balance

variable {ω : Type*} {obs : σ → ι → ω} {m : σ → Nat} {gain loss : ω → Bool}

/-- A measure that every step moves by what it gains and loses moves, over a
    run, by all that was gained and lost. -/
theorem run_balance
    (hstep : ∀ s i, m (step s i) + (if loss (obs s i) then 1 else 0)
      = m s + (if gain (obs s i) then 1 else 0))
    (s : σ) (is : List ι) :
    m (run step s is) + (trace step obs s is).countP loss
      = m s + (trace step obs s is).countP gain := by
  induction is generalizing s with
  | nil => rfl
  | cons i _ ih =>
    have h1 := hstep s i
    have h2 := ih (step s i)
    simp only [run_cons, trace, countP_cons]
    omega

/-- The same where a step may also lose more than it reports. -/
theorem run_balance_le
    (hstep : ∀ s i, m (step s i) + (if loss (obs s i) then 1 else 0)
      ≤ m s + (if gain (obs s i) then 1 else 0))
    (s : σ) (is : List ι) :
    m (run step s is) + (trace step obs s is).countP loss
      ≤ m s + (trace step obs s is).countP gain := by
  induction is generalizing s with
  | nil => exact Nat.le_refl _
  | cons i _ ih =>
    have h1 := hstep s i
    have h2 := ih (step s i)
    simp only [run_cons, trace, countP_cons]
    omega

end Balance

end Runs

end Relational
