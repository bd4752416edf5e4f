/-
  What the journal is for, said without its tables: slots, the jobs that hold
  them, and the completions that are still owed for a job.  A slot is vacant,
  assigned or fenced; a hold is provisional until it is owned; a debt is
  claimed at most once.

  `Step` says everything that one journalled event can do to such a book.
  Coherence and the facts about claims are proved here from the steps alone.
-/
import Mathlib

namespace Velnor.Control.Journal.Custody

open Function

universe u v w

inductive Standing where
  | vacant
  | assigned
  | fenced
  deriving DecidableEq, Repr

/-- A job that occupies a slot, or may: a provisional hold is an intent. -/
structure Hold (σ : Type u) (γ : Type w) where
  slot : σ
  generation : γ
  provisional : Bool

/-- A completion owed to the remote service. -/
structure Debt (σ : Type u) (γ : Type w) where
  slot : σ
  generation : γ
  claimed : Bool

structure Book (σ : Type u) (ι : Type v) (γ : Type w) where
  slots : σ → Option (γ × Standing)
  holds : ι → Option (Hold σ γ)
  debts : ι → Option (Debt σ γ)

variable {σ : Type u} {ι : Type v} {γ : Type w} {b b' : Book σ ι γ} {i : σ} {j : ι}

/-- No job holds the slot. -/
def Book.Free (b : Book σ ι γ) (i : σ) : Prop := ∀ j h, b.holds j = some h → h.slot ≠ i

/-- The three tables fit together. -/
structure Coherent (b : Book σ ι γ) : Prop where
  /-- A hold names the current generation of a slot that is not vacant. -/
  seated : ∀ j h, b.holds j = some h → ∃ st, b.slots h.slot = some (h.generation, st) ∧ st ≠ .vacant
  /-- One hold for each slot. -/
  single : ∀ j j' h h', b.holds j = some h → b.holds j' = some h' → h.slot = h'.slot → j = j'
  /-- An assigned slot is held. -/
  held : ∀ i g, b.slots i = some (g, .assigned) → ∃ j h, b.holds j = some h ∧ h.slot = i
  /-- A debt is that of an owned hold. -/
  owned : ∀ j d, b.debts j = some d →
    ∃ h, b.holds j = some h ∧ h.slot = d.slot ∧ h.generation = d.generation ∧ h.provisional = false

variable {g : γ} {st : Standing}

theorem Coherent.free_of_vacant (hb : Coherent b) (h : b.slots i = some (g, .vacant)) :
    b.Free i := by
  intro j hold hj heq
  obtain ⟨_, hslot, hst⟩ := hb.seated j hold hj
  rw [heq, h] at hslot
  cases hslot
  exact hst rfl

theorem Coherent.free_of_unknown (hb : Coherent b) (h : b.slots i = none) : b.Free i := by
  intro j hold hj heq
  obtain ⟨_, hslot, -⟩ := hb.seated j hold hj
  rw [heq, h] at hslot
  cases hslot

/-- What is left of a slot when its job goes: a fence stays. -/
def vacated : γ × Standing → γ × Standing
  | (g, .fenced) => (g, .fenced)
  | (g, _) => (g, .vacant)

theorem vacated_ne_assigned (slot : γ × Standing) : (vacated slot).2 ≠ .assigned := by
  obtain ⟨_, st⟩ := slot
  cases st <;> nofun

/-- What an observer of the journal is told of a step: the slot or the job
    that it is about. -/
inductive Label (σ : Type u) (ι : Type v) where
  | quiet
  | add (slot : σ)
  | seat (slot : σ)
  | fence (slot : σ)
  | occupy (slot : σ) (job : ι)
  | retarget (job acquired : ι)
  | own (job : ι)
  | release (job : ι)
  | intend (job : ι)
  | claim (job : ι)
  | close (job : ι)
  deriving DecidableEq, Repr

variable [DecidableEq σ] [DecidableEq ι]

inductive Step : Book σ ι γ → Label σ ι → Book σ ι γ → Prop
  /-- Nothing the book shows. -/
  | idle (b : Book σ ι γ) : Step b .quiet b
  /-- A slot is named that the book knows. -/
  | known (b : Book σ ι γ) (i : σ) (slot : γ × Standing) (hslot : b.slots i = some slot) :
      Step b (.add i) b
  /-- A slot is named for the first time. -/
  | add (b : Book σ ι γ) (i : σ) (g : γ) (hnew : b.slots i = none) :
      Step b (.add i) { b with slots := update b.slots i (some (g, .vacant)) }
  /-- A slot that no job holds takes any standing but `assigned`. -/
  | seat (b : Book σ ι γ) (i : σ) (g : γ) (st : Standing) (hst : st ≠ .assigned)
      (hfree : b.Free i) :
      Step b (.seat i) { b with slots := update b.slots i (some (g, st)) }
  | fence (b : Book σ ι γ) (i : σ) (g : γ) (st : Standing) (hslot : b.slots i = some (g, st)) :
      Step b (.fence i) { b with slots := update b.slots i (some (g, .fenced)) }
  /-- A slot that cannot be given up yet is fenced. -/
  | retain (b : Book σ ι γ) (i : σ) (g : γ) (st : Standing) (hslot : b.slots i = some (g, st)) :
      Step b (.seat i) { b with slots := update b.slots i (some (g, .fenced)) }
  /-- An acquisition is intended. -/
  | occupy (b : Book σ ι γ) (i : σ) (g : γ) (j : ι) (hslot : b.slots i = some (g, .vacant))
      (hnew : b.holds j = none) :
      Step b (.occupy i j)
        { b with
          slots := update b.slots i (some (g, .assigned))
          holds := update b.holds j (some ⟨i, g, true⟩) }
  /-- A provisional hold gets the identity the reply named. -/
  | retarget (b : Book σ ι γ) (j j' : ι) (h : Hold σ γ) (hj : b.holds j = some h)
      (hp : h.provisional = true) (hfree : j' = j ∨ b.holds j' = none) :
      Step b (.retarget j j') { b with holds := update (update b.holds j none) j' (some h) }
  | own (b : Book σ ι γ) (j : ι) (i : σ) (g : γ) (st : Standing)
      (hslot : b.slots i = some (g, st)) (hst : st ≠ .vacant)
      (hat : ∃ h, b.holds j = some h ∧ h.slot = i) :
      Step b (.own j) { b with holds := update b.holds j (some ⟨i, g, false⟩) }
  /-- A job goes for which nothing is owed. -/
  | release (b : Book σ ι γ) (j : ι) (h : Hold σ γ) (slot : γ × Standing)
      (hj : b.holds j = some h) (hnone : b.debts j = none)
      (hslot : b.slots h.slot = some slot) :
      Step b (.release j)
        { b with
          slots := update b.slots h.slot (some (vacated slot))
          holds := update b.holds j none }
  /-- A job whose completion is owed stays. -/
  | spare (b : Book σ ι γ) (j : ι) (d : Debt σ γ) (hd : b.debts j = some d) : Step b (.release j) b
  /-- A completion is intended. -/
  | intend (b : Book σ ι γ) (j : ι) (h : Hold σ γ) (hj : b.holds j = some h)
      (hp : h.provisional = false) (hnone : b.debts j = none) :
      Step b (.intend j) { b with debts := update b.debts j (some ⟨h.slot, h.generation, false⟩) }
  /-- A completion that is owed is not owed twice. -/
  | repeated (b : Book σ ι γ) (j : ι) (d : Debt σ γ) (hd : b.debts j = some d) :
      Step b (.intend j) b
  | claim (b : Book σ ι γ) (j : ι) (d : Debt σ γ) (hd : b.debts j = some d)
      (hc : d.claimed = false) :
      Step b (.claim j) { b with debts := update b.debts j (some { d with claimed := true }) }
  /-- A debt is acknowledged or given up; its job goes with it. -/
  | close (b : Book σ ι γ) (j : ι) (d : Debt σ γ) (h : Hold σ γ) (slot : γ × Standing)
      (hd : b.debts j = some d) (hj : b.holds j = some h)
      (hslot : b.slots h.slot = some slot) :
      Step b (.close j)
        { slots := update b.slots h.slot (some (vacated slot))
          holds := update b.holds j none
          debts := update b.debts j none }

/-! ## Coherence -/

section Update

variable {α : Type*} {β : Type*} [DecidableEq α] {f : α → Option β} {a k : α} {v w : β}

theorem update_some_iff :
    update f a (some v) k = some w ↔ (k = a ∧ v = w) ∨ (k ≠ a ∧ f k = some w) := by
  by_cases h : k = a
  · subst h
    rw [update_self, Option.some_inj]
    exact ⟨fun h => .inl ⟨rfl, h⟩, by rintro (⟨-, h⟩ | ⟨h, -⟩); exacts [h, absurd rfl h]⟩
  · rw [update_of_ne h]
    exact ⟨fun hk => .inr ⟨h, hk⟩, by rintro (⟨hk, -⟩ | ⟨-, hk⟩); exacts [absurd hk h, hk]⟩

theorem update_other {v : Option β} (h : k ≠ a) (hk : f k = some w) : update f a v k = some w :=
  (update_of_ne h ..).trans hk

theorem update_none_iff : update f a none k = some w ↔ k ≠ a ∧ f k = some w := by
  by_cases h : k = a
  · subst h
    rw [update_self]
    exact ⟨nofun, fun h => absurd rfl h.1⟩
  · rw [update_of_ne h]
    exact ⟨fun hk => ⟨h, hk⟩, And.right⟩

omit [DecidableEq α] in
theorem ne_of_some_none (hk : f k = some v) (ha : f a = none) : k ≠ a := by
  rintro rfl
  rw [ha] at hk
  cases hk

end Update

section

variable (hb : Coherent b)
include hb

omit [DecidableEq σ] [DecidableEq ι] in
/-- One hold may be new, for a slot that no other one names. -/
theorem Coherent.single_of {holds : ι → Option (Hold σ γ)} {h : Hold σ γ}
    (hcases : ∀ k hold, holds k = some hold →
      (k = j ∧ hold = h) ∨ (hold.slot ≠ h.slot ∧ b.holds k = some hold)) :
    ∀ k k' hold hold', holds k = some hold → holds k' = some hold' → hold.slot = hold'.slot →
      k = k' := by
  intro k k' hold hold' hk hk' heq
  rcases hcases k hold hk with ⟨rfl, rfl⟩ | ⟨hne, hk⟩
  · rcases hcases k' hold' hk' with ⟨rfl, -⟩ | ⟨hne, -⟩
    · rfl
    · exact absurd heq.symm hne
  · rcases hcases k' hold' hk' with ⟨-, rfl⟩ | ⟨-, hk'⟩
    · exact absurd heq hne
    · exact hb.single k k' hold hold' hk hk' heq

omit [DecidableEq ι] in
/-- A slot that no job holds may change. -/
theorem Coherent.seat (hst : st ≠ .assigned) (hfree : b.Free i) :
    Coherent { b with slots := update b.slots i (some (g, st)) } where
  seated j h hj := by
    obtain ⟨st', hslot, hne⟩ := hb.seated j h hj
    exact ⟨st', update_other (hfree j h hj) hslot, hne⟩
  single := hb.single
  held i' g' hi' := by
    rcases update_some_iff.mp hi' with ⟨-, heq⟩ | ⟨-, hold⟩
    · cases heq
      exact absurd rfl hst
    · exact hb.held i' g' hold
  owned := hb.owned

omit [DecidableEq ι] in
theorem Coherent.fence (hslot : b.slots i = some (g, st)) :
    Coherent { b with slots := update b.slots i (some (g, .fenced)) } where
  seated j h hj := by
    obtain ⟨st', hslot', hst'⟩ := hb.seated j h hj
    by_cases hi : h.slot = i
    · rw [hi, hslot] at hslot'
      cases hslot'
      exact ⟨.fenced, update_some_iff.mpr (.inl ⟨hi, rfl⟩), nofun⟩
    · exact ⟨st', update_some_iff.mpr (.inr ⟨hi, hslot'⟩), hst'⟩
  single := hb.single
  held i' g' hi' := by
    rcases update_some_iff.mp hi' with ⟨-, heq⟩ | ⟨-, hold⟩
    · cases heq
    · exact hb.held i' g' hold
  owned := hb.owned

theorem Coherent.occupy (hslot : b.slots i = some (g, .vacant)) (hnew : b.holds j = none) :
    Coherent { b with
      slots := update b.slots i (some (g, .assigned))
      holds := update b.holds j (some ⟨i, g, true⟩) } := by
  have hfree := hb.free_of_vacant hslot
  refine ⟨fun k h hk => ?_, hb.single_of (j := j) (h := ⟨i, g, true⟩) fun k h hk => ?_,
    fun i' g' hi' => ?_, fun k d hd => ?_⟩
  · rcases update_some_iff.mp hk with ⟨-, rfl⟩ | ⟨-, hold⟩
    · exact ⟨.assigned, update_self .., nofun⟩
    · obtain ⟨st, hst, hv⟩ := hb.seated k h hold
      exact ⟨st, update_other (hfree k h hold) hst, hv⟩
  · exact (update_some_iff.mp hk).imp (.imp_right .symm) fun hold => ⟨hfree k h hold.2, hold.2⟩
  · rcases update_some_iff.mp hi' with ⟨rfl, -⟩ | ⟨-, hold⟩
    · exact ⟨j, ⟨i', g, true⟩, update_self .., rfl⟩
    · obtain ⟨k, h, hk, hat⟩ := hb.held i' g' hold
      exact ⟨k, h, update_other (ne_of_some_none hk hnew) hk, hat⟩
  · obtain ⟨h, hk, hrest⟩ := hb.owned k d hd
    exact ⟨h, update_other (ne_of_some_none hk hnew) hk, hrest⟩

omit [DecidableEq σ] in
theorem Coherent.retarget {j' : ι} {h : Hold σ γ} (hj : b.holds j = some h)
    (hp : h.provisional = true) (hfree : j' = j ∨ b.holds j' = none) :
    Coherent { b with holds := update (update b.holds j none) j' (some h) } := by
  -- Every other hold keeps its name.
  have hkeeps : ∀ k hold, b.holds k = some hold → k ≠ j →
      update (update b.holds j none) j' (some h) k = some hold := by
    intro _ _ hk hkj
    refine update_some_iff.mpr (.inr ⟨?_, update_other hkj hk⟩)
    rcases hfree with rfl | hnone
    · exact hkj
    · exact ne_of_some_none hk hnone
  have hcases : ∀ k hold, update (update b.holds j none) j' (some h) k = some hold →
      (k = j' ∧ hold = h) ∨ (hold.slot ≠ h.slot ∧ b.holds k = some hold) := by
    intro k hold hk
    rcases update_some_iff.mp hk with ⟨rfl, rfl⟩ | ⟨-, hk⟩
    · exact .inl ⟨rfl, rfl⟩
    · obtain ⟨hne, hk⟩ := update_none_iff.mp hk
      exact .inr ⟨fun heq => hne (hb.single k j hold h hk hj heq), hk⟩
  refine ⟨fun k hold hk => ?_, hb.single_of hcases, fun i g hi => ?_, fun k d hd => ?_⟩
  · rcases hcases k hold hk with ⟨-, rfl⟩ | ⟨-, hold'⟩
    · exact hb.seated j _ hj
    · exact hb.seated k hold hold'
  · obtain ⟨k, hold, hk, hat⟩ := hb.held i g hi
    by_cases hkj : k = j
    · subst hkj
      cases hj.symm.trans hk
      exact ⟨j', h, update_self .., hat⟩
    · exact ⟨k, hold, hkeeps k hold hk hkj, hat⟩
  · obtain ⟨hold, hk, hslot, hgen, hown⟩ := hb.owned k d hd
    refine ⟨hold, hkeeps k hold hk ?_, hslot, hgen, hown⟩
    rintro rfl
    cases hj.symm.trans hk
    cases hp.symm.trans hown

omit [DecidableEq σ] in
theorem Coherent.own (hslot : b.slots i = some (g, st)) (hst : st ≠ .vacant)
    (hat : ∃ h, b.holds j = some h ∧ h.slot = i) :
    Coherent { b with holds := update b.holds j (some ⟨i, g, false⟩) } := by
  obtain ⟨h₀, hj, rfl⟩ := hat
  have hgen : h₀.generation = g := by
    obtain ⟨_, hslot', -⟩ := hb.seated j h₀ hj
    cases hslot.symm.trans hslot'
    rfl
  refine ⟨fun k h hk => ?_, hb.single_of (j := j) (h := ⟨h₀.slot, g, false⟩) fun k h hk => ?_,
    fun i' g' hi' => ?_, fun k d hd => ?_⟩
  · rcases update_some_iff.mp hk with ⟨-, rfl⟩ | ⟨-, hold⟩
    · exact ⟨st, hslot, hst⟩
    · exact hb.seated k h hold
  · refine (update_some_iff.mp hk).imp (.imp_right .symm) fun ⟨hne, hold⟩ => ⟨fun heq => ?_, hold⟩
    exact hne (hb.single k j h h₀ hold hj heq)
  · obtain ⟨k, h, hk, hat⟩ := hb.held i' g' hi'
    by_cases hkj : k = j
    · subst hkj
      cases hj.symm.trans hk
      exact ⟨k, _, update_self .., hat⟩
    · exact ⟨k, h, update_other hkj hk, hat⟩
  · obtain ⟨h, hk, hs, hg, hp⟩ := hb.owned k d hd
    by_cases hkj : k = j
    · subst hkj
      cases hj.symm.trans hk
      exact ⟨_, update_self .., hs, hgen ▸ hg, rfl⟩
    · exact ⟨h, update_other hkj hk, hs, hg, hp⟩

/-- A job goes, with the debt it may have had, and its slot is vacated. -/
theorem Coherent.drop {h : Hold σ γ} {slot : γ × Standing} {debts : ι → Option (Debt σ γ)}
    (hj : b.holds j = some h) (hdebts : ∀ k d, debts k = some d → k ≠ j ∧ b.debts k = some d) :
    Coherent
      { slots := update b.slots h.slot (some (vacated slot))
        holds := update b.holds j none
        debts := debts } := by
  refine ⟨fun k hold hk => ?_, fun k₁ k₂ h₁ h₂ hk₁ hk₂ heq => ?_, fun i g hi => ?_,
    fun k d hd => ?_⟩
  · obtain ⟨hne, hold'⟩ := update_none_iff.mp hk
    obtain ⟨st, hst, hv⟩ := hb.seated k hold hold'
    have hother : hold.slot ≠ h.slot := fun heq => hne (hb.single k j hold h hold' hj heq)
    exact ⟨st, update_other hother hst, hv⟩
  · exact hb.single k₁ k₂ h₁ h₂ (update_none_iff.mp hk₁).2 (update_none_iff.mp hk₂).2 heq
  · rcases update_some_iff.mp hi with ⟨-, heq⟩ | ⟨hne, hold⟩
    · exact absurd (congrArg Prod.snd heq) (vacated_ne_assigned slot)
    obtain ⟨k, hold, hk, hat⟩ := hb.held i g hold
    refine ⟨k, hold, update_other ?_ hk, hat⟩
    rintro rfl
    cases hj.symm.trans hk
    exact hne hat.symm
  · obtain ⟨hne, hd'⟩ := hdebts k d hd
    obtain ⟨hold, hk, hrest⟩ := hb.owned k d hd'
    exact ⟨hold, update_other hne hk, hrest⟩

omit [DecidableEq σ] in
/-- A debt for an owned hold, or one that stays with its hold. -/
theorem Coherent.owe {d : Debt σ γ}
    (hown : ∃ h, b.holds j = some h ∧ h.slot = d.slot ∧ h.generation = d.generation
      ∧ h.provisional = false) :
    Coherent { b with debts := update b.debts j (some d) } where
  seated := hb.seated
  single := hb.single
  held := hb.held
  owned k d' hd' := by
    rcases update_some_iff.mp hd' with ⟨rfl, rfl⟩ | ⟨-, hold⟩
    · exact hown
    · exact hb.owned k d' hold

end

variable {l : Label σ ι}

/-- Every step keeps the book coherent. -/
theorem Step.coherent (hstep : Step b l b') (hb : Coherent b) : Coherent b' := by
  cases hstep with
  | idle | known | spare | repeated => exact hb
  | add _ _ hnew => exact hb.seat nofun (hb.free_of_unknown hnew)
  | seat _ _ _ hst hfree => exact hb.seat hst hfree
  | fence _ _ _ hslot | retain _ _ _ hslot => exact hb.fence hslot
  | occupy _ _ _ hslot hnew => exact hb.occupy hslot hnew
  | retarget _ _ _ hj hp hfree => exact hb.retarget hj hp hfree
  | own _ _ _ _ hslot hst hat => exact hb.own hslot hst hat
  | release _ _ _ hj hnone =>
    exact hb.drop hj fun k d hd => ⟨ne_of_some_none hd hnone, hd⟩
  | intend _ h hj hp => exact hb.owe ⟨h, hj, rfl, rfl, hp⟩
  | claim j d hd => exact hb.owe (hb.owned j d hd)
  | close _ _ _ _ _ hj =>
    exact hb.drop hj fun k d' hd' => update_none_iff.mp hd'

/-! ## Claims -/

/-- The completion of `j` is owed and its send is claimed. -/
def Claimed (b : Book σ ι γ) (j : ι) : Prop := ∃ d, b.debts j = some d ∧ d.claimed = true

/-- Nothing is owed for `j`, and nothing proves that it is owned. -/
def Unowned (b : Book σ ι γ) (j : ι) : Prop :=
  b.debts j = none ∧ ∀ h, b.holds j = some h → h.provisional = true

theorem Step.claimed_of_claim (hstep : Step b (.claim j) b') : Claimed b' j := by
  cases hstep with
  | claim => exact ⟨_, update_self .., rfl⟩

/-- A claim is not made twice. -/
theorem Step.not_claimed (hstep : Step b (.claim j) b') : ¬ Claimed b j := by
  rintro ⟨_, hd', hc'⟩
  cases hstep with
  | claim _ _ hd hc =>
    cases hd.symm.trans hd'
    cases hc.symm.trans hc'

theorem Step.not_unowned (hstep : Step b (.claim j) b') : ¬ Unowned b j := by
  rintro ⟨hnone, -⟩
  cases hstep with
  | claim _ _ hd => exact ne_of_some_none hd hnone rfl

/-- A claim lasts until its completion is closed. -/
theorem Step.claimed (hstep : Step b l b') (h : Claimed b j) : Claimed b' j ∨ l = .close j := by
  obtain ⟨d, hd, hc⟩ := h
  cases hstep with
  | idle | known | add | seat | fence | retain | occupy | retarget | own | release | spare
  | repeated => exact .inl ⟨d, hd, hc⟩
  | intend _ _ _ _ hnone =>
    exact .inl ⟨d, update_other (ne_of_some_none hd hnone) hd, hc⟩
  | claim _ _ hd' hc' =>
    refine .inl ⟨d, update_other ?_ hd, hc⟩
    rintro rfl
    cases hd'.symm.trans hd
    cases hc'.symm.trans hc
  | close k =>
    by_cases hjk : j = k
    · exact .inr (by rw [hjk])
    · exact .inl ⟨d, update_other hjk hd, hc⟩

theorem Step.unowned_of_close (hstep : Step b (.close j) b') : Unowned b' j := by
  cases hstep with
  | close =>
    refine ⟨update_self _ _ _, fun hold hk => ?_⟩
    exact absurd rfl (update_none_iff.mp hk).1

/-- Only an accepted ownership gives a closed job a new completion. -/
theorem Step.unowned (hstep : Step b l b') (h : Unowned b j) : Unowned b' j ∨ l = .own j := by
  obtain ⟨hnone, hprov⟩ := h
  cases hstep with
  | idle | known | add | seat | fence | retain | spare | repeated => exact .inl ⟨hnone, hprov⟩
  | occupy =>
    refine .inl ⟨hnone, fun h hj => ?_⟩
    rcases update_some_iff.mp hj with ⟨-, rfl⟩ | ⟨-, hold⟩
    · rfl
    · exact hprov h hold
  | retarget _ _ _ _ hp =>
    refine .inl ⟨hnone, fun hold hj => ?_⟩
    rcases update_some_iff.mp hj with ⟨-, rfl⟩ | ⟨-, hj⟩
    · exact hp
    · exact hprov hold (update_none_iff.mp hj).2
  | own k =>
    by_cases hjk : j = k
    · exact .inr (by rw [hjk])
    refine .inl ⟨hnone, fun hold hj => ?_⟩
    rcases update_some_iff.mp hj with ⟨heq, -⟩ | ⟨-, hold'⟩
    · exact absurd heq hjk
    · exact hprov hold hold'
  | release =>
    exact .inl ⟨hnone, fun hold hj => hprov hold (update_none_iff.mp hj).2⟩
  | intend k h hk hp =>
    have hjk : j ≠ k := by
      rintro rfl
      cases hp.symm.trans (hprov h hk)
    exact .inl ⟨(update_of_ne hjk _ _).trans hnone, hprov⟩
  | claim k _ hd =>
    have hjk : j ≠ k := (ne_of_some_none hd hnone).symm
    exact .inl ⟨(update_of_ne hjk _ _).trans hnone, hprov⟩
  | close k _ _ _ hd =>
    have hjk : j ≠ k := (ne_of_some_none hd hnone).symm
    exact .inl ⟨(update_of_ne hjk _ _).trans hnone,
      fun hold hj => hprov hold (update_none_iff.mp hj).2⟩

end Velnor.Control.Journal.Custody
