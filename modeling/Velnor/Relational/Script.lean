/-
  Programs over a store, as sequences of calls that each commit on their own,
  and what a crash can leave of them.

  A crash falls between two calls and forgets everything but the store, so a
  program is a tree of calls: `run` is the whole of it and `cut n` the store
  after its first `n` calls.  An error stops a script where it stands; what was
  committed before it stays.

  `Safe I Q` is the rule such programs are verified by: `I` holds wherever the
  script is cut, and `Q` holds of what it returns.  `Succeeds I Q` says besides
  that it returns.
-/
import Velnor.Relational.Transaction

namespace Relational

universe u v w

/-! ## Refusals -/

section Refusals

variable {ε : Type v} {α : Type w}

/-- Stop with `error` when the test holds. -/
def refuseIf (c : Prop) [Decidable c] (error : ε) : Except ε Unit :=
  if c then .error error else .ok ()

/-- The value, or `error` when there is none. -/
def orRefuse (value : Option α) (error : ε) : Except ε α :=
  match value with
  | none => .error error
  | some a => .ok a

variable {c : Prop} {a : α}

theorem refuseIf_pass [Decidable c] (h : ¬ c) (error : ε) : refuseIf c error = .ok () := if_neg h

theorem refuseIf_stop [Decidable c] (h : c) (error : ε) :
    refuseIf c error = .error error := if_pos h

@[simp] theorem orRefuse_some (a : α) (error : ε) : orRefuse (some a) error = .ok a := rfl

theorem refuseIf_eq_ok [Decidable c] {error : ε} {u : Unit} : refuseIf c error = .ok u ↔ ¬ c := by
  by_cases hc : c
  · rw [refuseIf_stop hc]
    simp [hc]
  · rw [refuseIf_pass hc]
    simp [hc]

theorem orRefuse_eq_ok {value : Option α} {error : ε} :
    orRefuse value error = .ok a ↔ value = some a := by
  cases value with
  | none | some b => simp [orRefuse]

theorem ok_bind {β : Type w} (b : β) (f : β → Except ε α) : (Except.ok b >>= f) = f b := rfl

/-- A body goes through exactly when its first part does and then the rest. -/
theorem bind_eq_ok {β : Type w} {x : Except ε β} {f : β → Except ε α} :
    (x >>= f) = .ok a ↔ ∃ b, x = .ok b ∧ f b = .ok a := by
  constructor
  · exact bind_ok
  · rintro ⟨_, rfl, h⟩
    exact h

theorem pure_eq_ok {b : α} : (pure a : Except ε α) = .ok b ↔ b = a := by
  constructor
  · intro h
    exact (Except.ok.inj h).symm
  · rintro rfl
    rfl

/-- Renaming an error is no way to an answer. -/
theorem mapError_ok {ε' : Type*} {x : Except ε α} {f : ε → ε'} (h : x.mapError f = .ok a) :
    x = .ok a := by
  cases x with
  | error => cases h
  | ok => exact congrArg Except.ok (Except.ok.inj h)

end Refusals

/-- A call and the store it was made on: nothing changes on an error. -/
def transact {σ : Type u} {ε : Type v} {α : Type w} (db : σ) (body : σ → Except ε (α × σ)) :
    Except ε α × σ :=
  match body db with
  | .ok (value, db') => (.ok value, db')
  | .error error => (.error error, db)

section Transact

variable {σ : Type u} {ε : Type v} {α : Type w} {db db' : σ} {body : σ → Except ε (α × σ)}

/-- Only a body that went through changes the store. -/
theorem transact_eq_ok {value : α} :
    transact db body = (.ok value, db') ↔ body db = .ok (value, db') := by
  unfold transact
  cases hbody : body db with
  | error => simp
  | ok => simp [Prod.ext_iff]

theorem transact_of_ok {value : α} (h : body db = .ok (value, db')) :
    transact db body = (.ok value, db') := transact_eq_ok.mpr h

/-- A call answers with an error and an unchanged store, or with a value. -/
theorem transact_cases (db : σ) (body : σ → Except ε (α × σ)) :
    (∃ error, transact db body = (.error error, db))
      ∨ ∃ value db', transact db body = (.ok value, db') ∧ body db = .ok (value, db') := by
  cases hbody : body db with
  | error error => exact .inl ⟨error, by rw [transact, hbody]⟩
  | ok result => exact .inr ⟨result.1, result.2, transact_of_ok hbody, rfl⟩

end Transact

/-! ## Scripts -/

/-- A tree of calls: `effect` is what a call does to the store it is made on,
    and `next` how the script goes on from what it answered there. -/
inductive Script (σ : Type u) (ε : Type v) (α : Type w) where
  | done (result : Except ε α)
  | call (effect : σ → σ) (next : σ → Script σ ε α)

namespace Script

variable {σ : Type u} {ε : Type v} {α β : Type w}

protected def bind : Script σ ε α → (α → Script σ ε β) → Script σ ε β
  | .done (.ok a), f => f a
  | .done (.error error), _ => .done (.error error)
  | .call effect next, f => .call effect fun s => (next s).bind f

instance : Monad (Script σ ε) where
  pure a := .done (.ok a)
  bind := Script.bind

instance : MonadLift (Except ε) (Script σ ε) where
  monadLift := .done

/-- One call. -/
def perform (c : σ → Except ε α × σ) : Script σ ε α :=
  .call (fun s => (c s).2) fun s => .done (c s).1

/-- A call that only reads. -/
def query (q : σ → α) : Script σ ε α := perform fun s => (.ok (q s), s)

/-- The whole script. -/
def run : Script σ ε α → σ → Except ε α × σ
  | .done result, s => (result, s)
  | .call effect next, s => (next s).run (effect s)

/-- The store when a crash falls after the first `n` calls. -/
def cut : Script σ ε α → Nat → σ → σ
  | .done _, _, s => s
  | .call _ _, 0, s => s
  | .call effect next, n + 1, s => (next s).cut n (effect s)

/-! ### Running -/

@[simp] theorem run_perform (c : σ → Except ε α × σ) (s : σ) : (perform c).run s = c s := rfl

variable {x : Script σ ε α} {f : α → Script σ ε β} {a : α}

/-- A script goes on from what its first part returned, where that left the store. -/
theorem run_bind_of_ok {s s' : σ} (h : x.run s = (.ok a, s')) : (x >>= f).run s = (f a).run s' := by
  -- over the calls of the first part, each from where the last left the store
  induction x generalizing s with
  | done =>
    cases h
    rfl
  | call _ _ ih => exact ih s h

theorem run_query_bind (q : σ → α) (f : α → Script σ ε β) (s : σ) :
    (query q >>= f).run s = (f (q s)).run s := rfl

theorem run_lift_bind {x : Except ε α} (h : x = .ok a) (f : α → Script σ ε β) (s : σ) :
    ((liftM x : Script σ ε α) >>= f).run s = (f a).run s := by
  rw [h]
  rfl

/-! ### Cuts -/

@[simp] theorem cut_zero (x : Script σ ε α) (s : σ) : x.cut 0 s = s := by
  cases x <;> rfl

/-- After a first call that went through, a cut is one of the rest. -/
theorem cut_perform_bind {c : σ → Except ε α × σ} {s s' : σ} (h : c s = (.ok a, s')) (n : Nat) :
    (perform c >>= f).cut (n + 1) s = (f a).cut n s' := by
  show ((Script.done (c s).1).bind f).cut n (c s).2 = _
  rw [h]
  rfl

/-! ### Verifying -/

/-- `I` holds wherever the script is cut, and `Q` of what it returns. -/
structure Safe (I : σ → Prop) (Q : α → σ → Prop) (x : Script σ ε α) (s : σ) : Prop where
  cuts : ∀ n, I (x.cut n s)
  returns : ∀ a s', x.run s = (.ok a, s') → Q a s'

variable {I : σ → Prop} {Q : α → σ → Prop} {R : β → σ → Prop} {s : σ}

theorem Safe.now (h : Safe I Q x s) : I s := by
  have h0 := h.cuts 0
  rwa [cut_zero] at h0

theorem safe_pure (hI : I s) (hQ : Q a s) : Safe I Q (pure a : Script σ ε α) s where
  cuts _ := hI
  returns b s' h := by
    obtain ⟨hb, rfl⟩ := Prod.mk.inj h
    rw [← Except.ok.inj hb]
    exact hQ

theorem safe_error {error : ε} (hI : I s) :
    Safe I Q (liftM (Except.error error : Except ε α) : Script σ ε α) s :=
  ⟨fun _ => hI, fun _ _ h => by cases h⟩

/-- One call: `I` before it and after it. -/
theorem safe_perform {c : σ → Except ε α × σ} (hI : I s) (hI' : I (c s).2)
    (hQ : ∀ a, (c s).1 = .ok a → Q a (c s).2) : Safe I Q (perform c) s where
  cuts n := by
    cases n with
    | zero => exact hI
    | succ => exact hI'
  returns a s' h := by
    rw [run_perform] at h
    have h1 : (c s).1 = .ok a := by rw [h]
    have h2 : (c s).2 = s' := by rw [h]
    rw [← h2]
    exact hQ a h1

/-- Composition: the rest is judged from whatever the first part returned, and
    `I` still holds there. -/
theorem safe_bind (hx : Safe I Q x s) (hf : ∀ a s', I s' → Q a s' → Safe I R (f a) s') :
    Safe I R (x >>= f) s := by
  -- a cut of the whole is a cut of the first part, or one of what follows it
  induction x generalizing s with
  | done result =>
    cases result with
    | error => exact ⟨fun _ => hx.now, fun _ _ h => by cases h⟩
    | ok a => exact hf a s hx.now (hx.returns a s rfl)
  | call effect next ih =>
    have hnext : Safe I R (next s >>= f) (effect s) :=
      ih s ⟨fun n => hx.cuts (n + 1), fun a s' h => hx.returns a s' h⟩
    constructor
    · intro n
      cases n with
      | zero => exact hx.now
      | succ n => exact hnext.cuts n
    · exact hnext.returns

/-- A test on values already read: nothing is called. -/
theorem safe_lift_bind {x : Except ε α} (hI : I s) (hf : ∀ a, x = .ok a → Safe I R (f a) s) :
    Safe I R ((liftM x : Script σ ε α) >>= f) s := by
  cases x with
  | error => exact safe_error hI
  | ok a => exact hf a rfl

/-- A read leaves the store where it is. -/
theorem safe_query_bind {q : σ → α} (hI : I s) (hf : Safe I R (f (q s)) s) :
    Safe I R (query q >>= f) s := by
  refine safe_bind (Q := fun a s' => a = q s ∧ s' = s) (safe_perform hI hI ?_) ?_
  · intro _ ha
    exact ⟨(Except.ok.inj ha).symm, rfl⟩
  · rintro _ _ - ⟨rfl, rfl⟩
    exact hf

/-- `Safe`, and no call of the script is refused. -/
structure Succeeds (I : σ → Prop) (Q : α → σ → Prop) (x : Script σ ε α) (s : σ) : Prop
    extends Safe I Q x s where
  goesThrough : ∃ a s', x.run s = (.ok a, s')

theorem succeeds_pure (hI : I s) (hQ : Q a s) : Succeeds I Q (pure a : Script σ ε α) s :=
  ⟨safe_pure hI hQ, a, s, rfl⟩

theorem succeeds_perform {c : σ → Except ε α × σ} {s' : σ} (h : c s = (.ok a, s')) (hI : I s)
    (hI' : I s') (hQ : Q a s') : Succeeds I Q (perform c) s := by
  refine ⟨safe_perform hI ?_ ?_, a, s', h⟩
  · rw [h]
    exact hI'
  · intro _ hb
    rw [h] at hb ⊢
    cases hb
    exact hQ

theorem succeeds_bind (hx : Succeeds I Q x s) (hf : ∀ a s', Q a s' → Succeeds I R (f a) s') :
    Succeeds I R (x >>= f) s := by
  refine ⟨safe_bind hx.toSafe fun a s' _ hQ => (hf a s' hQ).toSafe, ?_⟩
  obtain ⟨a, s', hrun⟩ := hx.goesThrough
  rw [run_bind_of_ok hrun]
  exact (hf a s' (hx.returns a s' hrun)).goesThrough

theorem succeeds_lift_bind {x : Except ε α} (h : x = .ok a) (hf : Succeeds I R (f a) s) :
    Succeeds I R ((liftM x : Script σ ε α) >>= f) s := by
  rw [h]
  exact hf

theorem succeeds_query_bind {q : σ → α} (hI : I s) (hf : Succeeds I R (f (q s)) s) :
    Succeeds I R (query q >>= f) s :=
  ⟨safe_query_bind hI hf.toSafe, hf.goesThrough⟩

end Script

end Relational
