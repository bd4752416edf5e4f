/-
  Keyed tables as a relational store keeps them: a list of rows in insertion
  order, a primary key and one further column under a `UNIQUE` constraint.

  The two constraints are fields of the structure, so a table that violates
  them cannot be built: a statement that could break one (`insert?`,
  `updateUniq?`) returns `none` instead, and a statement that cannot
  (`updateWhere`, `deleteWhere`) carries the reason in its argument.

  Every statement addresses one key, with an optional further `WHERE` test on
  the row.  Each has a `get?` lemma (what a later read sees), which is all that
  a proof about a transaction needs; row counts follow from the keys alone.
-/
import Velnor.Collections.Rows

namespace Relational

open List

universe u v w

variable {ρ : Type u} {κ : Type v} {υ : Type w}

/-- Rows under a primary key `key` and a `UNIQUE` column `uniq`.  A table with
    no second constraint takes `uniq := key`. -/
structure Table (ρ : Type u) {κ : Type v} {υ : Type w} (key : ρ → κ) (uniq : ρ → υ) where
  rows : List ρ
  keyNodup : (rows.map key).Nodup
  uniqNodup : (rows.map uniq).Nodup

namespace Table

variable {key : ρ → κ} {uniq : ρ → υ}

variable {s t t' : Table ρ key uniq} {k : κ} {r : ρ} {f : ρ → ρ} {p : ρ → Bool}

theorem ext (h : s.rows = t.rows) : s = t := by
  cases s
  cases t
  subst h
  rfl

instance [DecidableEq ρ] : DecidableEq (Table ρ key uniq) := fun s t =>
  decidable_of_iff (s.rows = t.rows) ⟨ext, fun h => h ▸ rfl⟩

/-- The table with no rows. -/
def empty : Table ρ key uniq := ⟨[], nodup_nil, nodup_nil⟩

/-- `SELECT COUNT(*)`. -/
def size (t : Table ρ key uniq) : Nat := t.rows.length

variable [DecidableEq κ]

/-- `SELECT * WHERE key = k`. -/
def get? (t : Table ρ key uniq) (k : κ) : Option ρ := t.rows.find? fun r => decide (key r = k)

/-! ## Reading back rows -/

theorem key_of_get? (h : t.get? k = some r) : key r = k := Rows.key_of_lookup h

theorem mem_of_get? (h : t.get? k = some r) : r ∈ t.rows := Rows.mem_of_lookup h

theorem get?_of_mem (h : r ∈ t.rows) : t.get? (key r) = some r := Rows.lookup_of_mem t.keyNodup h

theorem get?_eq_some_iff : t.get? k = some r ↔ r ∈ t.rows ∧ key r = k :=
  Rows.lookup_eq_some_iff t.keyNodup

/-- Two rows with the same `UNIQUE` value are the same row. -/
theorem eq_of_uniq {k' : κ} {r' : ρ} (h : t.get? k = some r) (h' : t.get? k' = some r')
    (hu : uniq r = uniq r') : k = k' := by
  have hr := inj_on_of_nodup_map t.uniqNodup (mem_of_get? h) (mem_of_get? h') hu
  rw [← key_of_get? h, ← key_of_get? h', hr]

/-! ## Counting by keys -/

theorem mem_keys_iff : k ∈ t.rows.map key ↔ (t.get? k).isSome := by
  rw [Option.isSome_iff_exists]
  constructor
  · intro h
    obtain ⟨r, hr, rfl⟩ := mem_map.mp h
    exact ⟨r, get?_of_mem hr⟩
  · rintro ⟨r, hr⟩
    exact mem_map.mpr ⟨r, mem_of_get? hr, key_of_get? hr⟩

/-- Tables holding the same keys have the same number of rows. -/
theorem size_eq_of_keys (h : ∀ k, (t.get? k).isSome = (s.get? k).isSome) : t.size = s.size := by
  -- duplicate-free lists with the same members are permutations
  have hperm : (t.rows.map key).Perm (s.rows.map key) := by
    rw [perm_ext_iff_of_nodup t.keyNodup s.keyNodup]
    intro k
    rw [mem_keys_iff, mem_keys_iff, h k]
  simpa [size] using hperm.length_eq

/-- One more key is one more row. -/
theorem size_eq_succ_of_keys (hs : (s.get? k).isSome = false) (ht : (t.get? k).isSome = true)
    (h : ∀ k', k' ≠ k → (t.get? k').isSome = (s.get? k').isSome) : t.size = s.size + 1 := by
  have hk : k ∉ s.rows.map key := by
    rw [mem_keys_iff, hs]
    simp
  have hperm : (t.rows.map key).Perm (k :: s.rows.map key) := by
    rw [perm_ext_iff_of_nodup t.keyNodup (nodup_cons.mpr ⟨hk, s.keyNodup⟩)]
    intro k'
    rw [mem_cons, mem_keys_iff, mem_keys_iff]
    by_cases hkk : k' = k
    · simp [hkk, ht]
    · simp [hkk, h k' hkk]
  simpa [size] using hperm.length_eq

/-! ## `UPDATE` of unconstrained columns -/

/-- What `UPDATE SET f WHERE key = k AND p` makes of one row. -/
def assign (key : ρ → κ) (k : κ) (p : ρ → Bool) (f : ρ → ρ) (r : ρ) : ρ :=
  if key r = k ∧ p r then f r else r

/-- A column that the assignment `f` leaves alone keeps its list of values. -/
theorem map_assign {β : Type*} (col : ρ → β) (k : κ) (p : ρ → Bool) (hf : ∀ r, col (f r) = col r)
    (l : List ρ) : (l.map (assign key k p f)).map col = l.map col := by
  rw [map_map]
  refine map_congr_left fun r _ => ?_
  simp only [Function.comp, assign]
  split
  · exact hf r
  · rfl

theorem lookup_map_assign (l : List ρ) (k k' : κ) (p : ρ → Bool) (hf : ∀ r, key (f r) = key r) :
    Rows.lookup key (l.map (assign key k p f)) k'
      = if k' = k then (Rows.lookup key l k).map (fun r => if p r then f r else r)
        else Rows.lookup key l k' := by
  -- the assignment keeps the key, so both searches stop at the same row
  have hkey : ∀ r, key (assign key k p f r) = key r := by
    intro r
    rw [assign]
    split
    · exact hf r
    · rfl
  rw [Rows.lookup_map hkey, Function.comp_apply]
  split_ifs with hk
  · subst hk
    exact Option.map_congr fun r hr => by simp [assign, Rows.key_of_lookup hr]
  · refine (Option.map_congr fun r hr => if_neg fun h => hk ?_).trans (congrFun Option.map_id _)
    exact (Rows.key_of_lookup hr).symm.trans h.1

section

variable (t k)

/-- `UPDATE SET f WHERE key = k AND p`, for an assignment `f` that leaves both
    constrained columns alone. -/
def updateWhere (p : ρ → Bool) (f : ρ → ρ) (hf : ∀ r, key (f r) = key r ∧ uniq (f r) = uniq r) :
    Table ρ key uniq where
  rows := t.rows.map (assign key k p f)
  keyNodup := by
    rw [map_assign key k p fun r => (hf r).1]
    exact t.keyNodup
  uniqNodup := by
    rw [map_assign uniq k p fun r => (hf r).2]
    exact t.uniqNodup

/-- `UPDATE SET f WHERE key = k`. -/
def update (f : ρ → ρ) (hf : ∀ r, key (f r) = key r ∧ uniq (f r) = uniq r) : Table ρ key uniq :=
  t.updateWhere k (fun _ => true) f hf

theorem get?_updateWhere (k' : κ) (p : ρ → Bool) (f : ρ → ρ)
    (hf : ∀ r, key (f r) = key r ∧ uniq (f r) = uniq r) :
    (t.updateWhere k p f hf).get? k'
      = if k' = k then (t.get? k).map (fun r => if p r then f r else r) else t.get? k' :=
  lookup_map_assign t.rows k k' p fun r => (hf r).1

theorem get?_update (k' : κ) (f : ρ → ρ) (hf : ∀ r, key (f r) = key r ∧ uniq (f r) = uniq r) :
    (t.update k f hf).get? k' = if k' = k then (t.get? k).map f else t.get? k' := by
  rw [update, get?_updateWhere]
  simp

end

/-- A primary key selects one row at most. -/
theorem length_filter_key (l : List ρ) (hl : (l.map key).Nodup) (k : κ) (p : ρ → Bool) :
    (l.filter fun r => decide (key r = k) && p r).length
      = if (l.find? fun r => decide (key r = k)).any p then 1 else 0 := by
  induction l with
  | nil => rfl
  | cons r rest ih =>
    obtain ⟨hr, hrest⟩ := nodup_cons.mp hl
    by_cases hk : key r = k
    · -- the key is this row's, so no later row has it
      have hnone : rest.filter (fun r => decide (key r = k) && p r) = [] := by
        rw [filter_eq_nil_iff]
        intro r' hr' hp
        simp only [Bool.and_eq_true, decide_eq_true_eq] at hp
        exact hr (mem_map.mpr ⟨r', hr', hp.1.trans hk.symm⟩)
      cases hp : p r with
      | false => simp [hk, hp, hnone]
      | true => simp [hk, hp, hnone]
    · simpa [filter_cons, find?_cons, hk] using ih hrest

section

variable (t k)

/-- The number of rows an `UPDATE` or a `DELETE` under this condition touches. -/
def changed (p : ρ → Bool) : Nat := (t.rows.filter fun r => decide (key r = k) && p r).length

theorem changed_eq (p : ρ → Bool) : t.changed k p = if (t.get? k).any p then 1 else 0 :=
  length_filter_key t.rows t.keyNodup k p

/-! ## `DELETE` -/

/-- `DELETE WHERE key = k AND p`. -/
def deleteWhere (p : ρ → Bool) : Table ρ key uniq where
  rows := t.rows.filter fun r => !(decide (key r = k) && p r)
  keyNodup := t.keyNodup.sublist (filter_sublist.map key)
  uniqNodup := t.uniqNodup.sublist (filter_sublist.map uniq)

theorem get?_deleteWhere (k' : κ) (p : ρ → Bool) :
    (t.deleteWhere k p).get? k'
      = if k' = k then (t.get? k).filter (fun r => !p r) else t.get? k' := by
  refine (Rows.lookup_filter t.keyNodup _ k').trans ?_
  show (t.get? k').filter _ = _
  cases hrow : t.get? k' with
  | none =>
    split_ifs with hk
    · rw [← hk, hrow]
      rfl
    · rfl
  | some r =>
    -- the one row of this key survives exactly when it fails `p`
    have hkey := key_of_get? hrow
    split_ifs with hk
    · rw [← hk, hrow]
      simp [Option.filter, hkey, hk]
    · simp [Option.filter, hkey, hk]

/-! ## Statements that must touch their row -/

/-- `UPDATE`, refused unless it changed exactly one row. -/
def updateOne? (p : ρ → Bool) (f : ρ → ρ) (hf : ∀ r, key (f r) = key r ∧ uniq (f r) = uniq r) :
    Option (Table ρ key uniq) :=
  if t.changed k p = 1 then some (t.updateWhere k p f hf) else none

/-- `DELETE`, refused unless it removed exactly one row. -/
def deleteOne? (p : ρ → Bool) : Option (Table ρ key uniq) :=
  if t.changed k p = 1 then some (t.deleteWhere k p) else none

end

theorem changed_eq_one (h : t.get? k = some r) (hp : p r = true) : t.changed k p = 1 := by
  rw [changed_eq, h, Option.any_some, if_pos hp]

/-- The row is there and meets the condition: it is the one that changes. -/
theorem updateOne?_of_get? (h : t.get? k = some r) (hp : p r = true) (f : ρ → ρ)
    (hf : ∀ r, key (f r) = key r ∧ uniq (f r) = uniq r) :
    ∃ t', t.updateOne? k p f hf = some t'
      ∧ ∀ k', t'.get? k' = if k' = k then some (f r) else t.get? k' := by
  refine ⟨t.updateWhere k p f hf, if_pos (changed_eq_one h hp), fun k' => ?_⟩
  rw [get?_updateWhere, h, Option.map_some, if_pos hp]

theorem deleteOne?_of_get? (h : t.get? k = some r) (hp : p r = true) :
    ∃ t', t.deleteOne? k p = some t'
      ∧ ∀ k', t'.get? k' = if k' = k then none else t.get? k' := by
  refine ⟨t.deleteWhere k p, if_pos (changed_eq_one h hp), fun k' => ?_⟩
  rw [get?_deleteWhere, h]
  simp [Option.filter, hp]

theorem get?_of_updateOne? {f : ρ → ρ} {hf : ∀ r, key (f r) = key r ∧ uniq (f r) = uniq r}
    (h : t.updateOne? k p f hf = some t') :
    ∃ r, t.get? k = some r ∧ ∀ k', t'.get? k' = if k' = k then some (f r) else t.get? k' := by
  rw [updateOne?, changed_eq] at h
  split_ifs at h with hany
  any_goals contradiction
  obtain ⟨r, hr, hp⟩ := (Option.any_eq_true _ _).mp hany
  cases h
  refine ⟨r, hr, fun k' => ?_⟩
  rw [get?_updateWhere, hr, Option.map_some, if_pos hp]

/-! ## Statements that a constraint can refuse -/

variable [DecidableEq υ]

/-- `INSERT`; `none` when the key or the `UNIQUE` value is taken. -/
def insert? (t : Table ρ key uniq) (r : ρ) : Option (Table ρ key uniq) :=
  if h : key r ∉ t.rows.map key ∧ uniq r ∉ t.rows.map uniq then
    some {
      rows := t.rows ++ [r]
      keyNodup := by
        rw [map_append]
        exact List.Nodup.append t.keyNodup (nodup_singleton _) (disjoint_singleton.mpr h.1)
      uniqNodup := by
        rw [map_append]
        exact List.Nodup.append t.uniqNodup (nodup_singleton _) (disjoint_singleton.mpr h.2) }
  else none

/-- The row inserts exactly when its key is free and its `UNIQUE` value unused. -/
theorem insert?_isSome_iff :
    (t.insert? r).isSome ↔ t.get? (key r) = none
      ∧ ∀ k r', t.get? k = some r' → uniq r' ≠ uniq r := by
  have hkey : key r ∉ t.rows.map key ↔ t.get? (key r) = none := by
    rw [mem_keys_iff]
    simp
  have huniq : uniq r ∉ t.rows.map uniq ↔ ∀ k r', t.get? k = some r' → uniq r' ≠ uniq r := by
    rw [mem_map]
    constructor
    · intro h _ r' hr' hu
      exact h ⟨r', mem_of_get? hr', hu⟩
    · rintro h ⟨r', hr', hu⟩
      exact h _ r' (get?_of_mem hr') hu
  rw [insert?]
  split
  · rename_i h
    exact ⟨fun _ => ⟨hkey.mp h.1, huniq.mp h.2⟩, fun _ => rfl⟩
  rename_i h
  constructor
  · intro hs
    simp at hs
  · rintro ⟨h1, h2⟩
    exact absurd ⟨hkey.mpr h1, huniq.mpr h2⟩ h

theorem rows_of_insert? (h : t.insert? r = some t') : t'.rows = t.rows ++ [r] := by
  rw [insert?] at h
  split at h
  · cases h
    rfl
  · cases h

theorem get?_of_insert? (h : t.insert? r = some t') (k : κ) :
    t'.get? k = if k = key r then some r else t.get? k := by
  have hfree := (insert?_isSome_iff.mp (by rw [h]; rfl)).1
  rw [get?, rows_of_insert? h]
  exact (congrFun (Rows.lookup_append hfree) k).trans (Function.update_apply ..)

/-- Where a `UNIQUE` value belongs to one key, a row under a free key inserts. -/
theorem exists_insert? (h : t.get? (key r) = none)
    (huniq : ∀ r', uniq r' = uniq r → key r' = key r) :
    ∃ t', t.insert? r = some t' ∧ ∀ k, t'.get? k = if k = key r then some r else t.get? k := by
  have hfree : (t.insert? r).isSome = true := by
    refine insert?_isSome_iff.mpr ⟨h, fun k r' hr' hu => ?_⟩
    rw [← key_of_get? hr', huniq r' hu, h] at hr'
    cases hr'
  obtain ⟨t', ht'⟩ := Option.isSome_iff_exists.mp hfree
  exact ⟨t', ht', get?_of_insert? ht'⟩

/-- `UPDATE SET f WHERE key = k`, for an assignment that writes the `UNIQUE`
    column; `none` when another row already has the value. -/
def updateUniq? (t : Table ρ key uniq) (k : κ) (f : ρ → ρ)
    (hf : ∀ r, key (f r) = key r) : Option (Table ρ key uniq) :=
  if h : ((t.rows.map (assign key k (fun _ => true) f)).map uniq).Nodup then
    some {
      rows := t.rows.map (assign key k (fun _ => true) f)
      keyNodup := by
        rw [map_assign key k (fun _ => true) hf]
        exact t.keyNodup
      uniqNodup := h }
  else none

theorem get?_of_updateUniq? {hf : ∀ r, key (f r) = key r} (h : t.updateUniq? k f hf = some t')
    (k' : κ) : t'.get? k' = if k' = k then (t.get? k).map f else t.get? k' := by
  rw [updateUniq?] at h
  split at h
  · cases h
    refine (lookup_map_assign t.rows k k' (fun _ => true) hf).trans ?_
    simp only [if_true]
    rfl
  · simp at h

end Table
end Relational
