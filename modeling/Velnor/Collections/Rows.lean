/-
  Rows kept in a vector and addressed by a key column: `lookup` is the first
  row with a key, `modifyFirst` the assignment through `iter_mut().find(..)`.
  Nothing in a vector keeps its keys apart, so `Distinct` is a predicate that
  every operation has to be shown to keep.

  The laws read a changed vector as a changed lookup function, with
  `Function.update` at the one key that changed.
-/
import Mathlib

namespace Rows

open List Function

variable {ρ : Type*} {κ : Type*} {β : Type*}

/-! ## The first row that satisfies a predicate -/

/-- The first row with `p` is replaced by its image. -/
def modifyFirst (p : ρ → Bool) (f : ρ → ρ) : List ρ → List ρ
  | [] => []
  | r :: rows => if p r then f r :: rows else r :: modifyFirst p f rows

variable {p : ρ → Bool} {f : ρ → ρ} {r₀ : ρ}

/-- A column the assignment does not touch. -/
theorem map_modifyFirst {col : ρ → β} (h : ∀ r, p r = true → col (f r) = col r) (rows : List ρ) :
    (modifyFirst p f rows).map col = rows.map col := by
  induction rows with
  | nil => rfl
  | cons r _ ih =>
    rw [modifyFirst]
    split
    case isTrue hr => rw [map_cons, map_cons, h r hr]
    case isFalse => rw [map_cons, map_cons, ih]

/-- What the assignment keeps of the row it finds, all rows keep. -/
theorem forall_modifyFirst {P : ρ → Prop} {rows : List ρ} (h : ∀ r ∈ rows, P r)
    (hf : ∀ r, rows.find? p = some r → P r → P (f r)) : ∀ r ∈ modifyFirst p f rows, P r := by
  induction rows with
  | nil => exact h
  | cons r _ ih =>
    rw [forall_mem_cons] at h
    rw [modifyFirst]
    split
    case isTrue hp => exact forall_mem_cons.mpr ⟨hf r (find?_cons_of_pos hp) h.1, h.2⟩
    case isFalse hp =>
      refine forall_mem_cons.mpr ⟨h.1, ih h.2 fun r hfound => hf r ?_⟩
      exact (find?_cons_of_neg hp).trans hfound

/-! ## Keyed rows -/

variable [DecidableEq κ] (key : ρ → κ)

/-- The first row with the key `k`. -/
def lookup (rows : List ρ) (k : κ) : Option ρ := rows.find? fun r => decide (key r = k)

/-- No two rows share a key. -/
def Distinct (rows : List ρ) : Prop := (rows.map key).Nodup

variable {key} {rows : List ρ} {r : ρ} {k : κ}

theorem lookup_cons (r : ρ) (rows : List ρ) (k : κ) :
    lookup key (r :: rows) k = if key r = k then some r else lookup key rows k := by
  unfold lookup
  rw [find?_cons]
  by_cases h : key r = k
  · rw [decide_eq_true h, if_pos h]
  · rw [decide_eq_false h, if_neg h]

omit [DecidableEq κ] in
theorem distinct_nil : Distinct key [] := nodup_nil

omit [DecidableEq κ] in
theorem distinct_cons :
    Distinct key (r :: rows) ↔ (∀ r' ∈ rows, key r' ≠ key r) ∧ Distinct key rows := by
  unfold Distinct
  rw [map_cons, nodup_cons, mem_map]
  exact and_congr_left fun _ => ⟨fun h r' hr' heq => h ⟨r', hr', heq⟩,
    fun h ⟨r', hr', heq⟩ => h r' hr' heq⟩

theorem key_of_lookup (h : lookup key rows k = some r) : key r = k := by
  have hr := find?_some h
  exact of_decide_eq_true hr

theorem mem_of_lookup (h : lookup key rows k = some r) : r ∈ rows := mem_of_find?_eq_some h

theorem lookup_eq_none_iff : lookup key rows k = none ↔ ∀ r ∈ rows, key r ≠ k := by
  unfold lookup
  rw [find?_eq_none]
  exact forall₂_congr fun r _ => by rw [decide_eq_true_iff]

section

variable (hd : Distinct key rows)
include hd

theorem lookup_of_mem (h : r ∈ rows) : lookup key rows (key r) = some r := by
  induction rows with
  | nil => cases h
  | cons _ _ ih =>
    obtain ⟨hne, hrest⟩ := distinct_cons.mp hd
    rw [lookup_cons]
    rcases mem_cons.mp h with rfl | hmem
    · rw [if_pos rfl]
    · rw [if_neg (hne r hmem).symm, ih hrest hmem]

theorem lookup_eq_some_iff : lookup key rows k = some r ↔ r ∈ rows ∧ key r = k := by
  constructor
  · exact fun h => ⟨mem_of_lookup h, key_of_lookup h⟩
  · rintro ⟨hmem, rfl⟩
    exact lookup_of_mem hd hmem

/-- Distinct keys: two rows with one key are one row. -/
theorem eq_of_key_eq {a b : ρ} (ha : a ∈ rows) (hb : b ∈ rows) (h : key a = key b) : a = b := by
  have hla := lookup_of_mem hd ha
  rw [h, lookup_of_mem hd hb] at hla
  exact (Option.some.inj hla).symm

/-- A search for a key and more finds the row of that key, or nothing. -/
theorem find?_and (q : ρ → Bool) (k : κ) :
    rows.find? (fun r => decide (key r = k) && q r) = (lookup key rows k).filter q := by
  induction rows with
  | nil => rfl
  | cons r rows ih =>
    obtain ⟨hne, hrest⟩ := distinct_cons.mp hd
    rw [lookup_cons, find?_cons]
    by_cases hk : key r = k
    · rw [if_pos hk, decide_eq_true hk, Bool.true_and, Option.filter_some]
      have hnone : lookup key rows k = none := lookup_eq_none_iff.mpr fun r' hr' => hk ▸ hne r' hr'
      cases hq : q r with
      | true => rfl
      | false =>
        change rows.find? _ = none
        rw [ih hrest, hnone, Option.filter_none]
    · rw [if_neg hk, decide_eq_false hk, Bool.false_and]
      exact ih hrest

/-- A key's row survives a filter that it passes. -/
theorem lookup_filter (p : ρ → Bool) (k : κ) :
    lookup key (rows.filter p) k = (lookup key rows k).filter p := by
  rw [← find?_and hd]
  unfold lookup
  rw [find?_filter]
  congr 1
  funext r
  rw [Bool.and_comm]
  simp

end

/-- An assignment to every row that keeps its key. -/
theorem lookup_map (hf : ∀ r, key (f r) = key r) (rows : List ρ) :
    lookup key (rows.map f) = Option.map f ∘ lookup key rows := by
  funext k
  induction rows with
  | nil => rfl
  | cons _ _ ih =>
    rw [map_cons, lookup_cons, comp_apply, lookup_cons, hf]
    split
    · rfl
    · exact ih

/-- Adding a row of a new key. -/
theorem lookup_append (h : lookup key rows (key r) = none) :
    lookup key (rows ++ [r]) = update (lookup key rows) (key r) (some r) := by
  funext k
  unfold lookup at h ⊢
  rw [find?_append, find?_singleton]
  by_cases hk : k = key r
  · subst hk
    rw [update_self, h, decide_eq_true rfl]
    rfl
  · rw [update_of_ne hk, decide_eq_false (Ne.symm hk)]
    exact Option.or_none

theorem distinct_append (hd : Distinct key rows) (h : lookup key rows (key r) = none) :
    Distinct key (rows ++ [r]) := by
  unfold Distinct at hd ⊢
  rw [map_append, map_singleton, nodup_append]
  refine ⟨hd, nodup_singleton _, fun a ha b hb => ?_⟩
  obtain ⟨r', hr', rfl⟩ := mem_map.mp ha
  rw [mem_singleton.mp hb]
  exact lookup_eq_none_iff.mp h r' hr'

/-- Dropping every row of one key. -/
theorem lookup_filter_ne (rows : List ρ) (k : κ) :
    lookup key (rows.filter fun r => decide (key r ≠ k)) = update (lookup key rows) k none := by
  funext k'
  unfold lookup
  rw [find?_filter]
  by_cases hk : k' = k
  · subst hk
    rw [update_self, find?_eq_none]
    intro _ _ h
    simp at h
  · rw [update_of_ne hk]
    congr 1
    funext r
    by_cases hr : key r = k'
    · simp [hr, hk]
    · simp [hr]

omit [DecidableEq κ] in
theorem distinct_filter (hd : Distinct key rows) (p : ρ → Bool) : Distinct key (rows.filter p) :=
  List.Nodup.sublist (List.Sublist.map key filter_sublist) hd

omit [DecidableEq κ] in
/-- A filter that only lets one key through. -/
theorem length_filter_le_one (hd : Distinct key rows)
    (h : ∀ a ∈ rows, ∀ b ∈ rows, p a = true → p b = true → key a = key b) :
    (rows.filter p).length ≤ 1 := by
  have hd' : Distinct key (rows.filter p) := distinct_filter hd p
  match hrows : rows.filter p, hd' with
  | [], _ => exact Nat.zero_le 1
  | [_], _ => exact Nat.le_refl 1
  | a :: b :: rest, hd' =>
    exfalso
    have hmem : ∀ r ∈ a :: b :: rest, r ∈ rows ∧ p r = true := fun r hr =>
      mem_filter.mp (hrows ▸ hr)
    obtain ⟨ha, hpa⟩ := hmem a mem_cons_self
    obtain ⟨hb, hpb⟩ := hmem b (mem_cons_of_mem _ mem_cons_self)
    exact (distinct_cons.mp hd').1 b mem_cons_self (h b hb a ha hpb hpa)

/-- Under distinct keys an assignment to one row is a map over all of them. -/
theorem modifyFirst_eq_map (hd : Distinct key rows) (hfound : rows.find? p = some r₀) (f : ρ → ρ) :
    modifyFirst p f rows = rows.map fun r => if key r = key r₀ then f r else r := by
  induction rows with
  | nil => cases hfound
  | cons r rows ih =>
    obtain ⟨hne, hrest⟩ := distinct_cons.mp hd
    rw [find?_cons] at hfound
    rw [modifyFirst, map_cons]
    cases hp : p r with
    | true =>
      rw [hp] at hfound
      obtain rfl : r = r₀ := Option.some.inj hfound
      rw [if_pos rfl, if_pos rfl]
      have hsame : (rows.map fun r' => if key r' = key r then f r' else r') = rows.map id :=
        map_congr_left fun r' hr' => if_neg (hne r' hr')
      rw [hsame, map_id]
    | false =>
      rw [hp] at hfound
      have hr₀ : r₀ ∈ rows := mem_of_find?_eq_some hfound
      rw [if_neg Bool.false_ne_true, if_neg (fun h => hne r₀ hr₀ h.symm), ih hrest hfound]

omit [DecidableEq κ] in
theorem distinct_modifyFirst (hd : Distinct key rows) (hkey : ∀ r, p r = true → key (f r) = key r) :
    Distinct key (modifyFirst p f rows) := by
  unfold Distinct
  rw [map_modifyFirst hkey]
  exact hd

section

variable (hd : Distinct key rows) (hfound : rows.find? p = some r₀)
include hd hfound

theorem mem_modifyFirst : r ∈ modifyFirst p f rows ↔ r = f r₀ ∨ (r ∈ rows ∧ key r ≠ key r₀) := by
  have hr₀ := mem_of_find?_eq_some hfound
  rw [modifyFirst_eq_map hd hfound, mem_map]
  constructor
  · rintro ⟨r', hr', rfl⟩
    by_cases hk : key r' = key r₀
    · left
      rw [if_pos hk, eq_of_key_eq hd hr' hr₀ hk]
    · right
      rw [if_neg hk]
      exact ⟨hr', hk⟩
  · rintro (rfl | ⟨hr, hk⟩)
    · exact ⟨r₀, hr₀, if_pos rfl⟩
    · exact ⟨r, hr, if_neg hk⟩

/-- An assignment that gives the row `r₀` a key no other row has. -/
theorem distinct_rekey (hfresh : ∀ r ∈ rows, key r ≠ key r₀ → key r ≠ key (f r₀)) :
    Distinct key (modifyFirst p f rows) := by
  have hr₀ := mem_of_find?_eq_some hfound
  rw [modifyFirst_eq_map hd hfound]
  unfold Distinct
  rw [map_map]
  refine List.Nodup.map_on ?_ (List.Nodup.of_map key hd)
  intro a ha b hb hab
  simp only [comp_apply] at hab
  by_cases hka : key a = key r₀
  · by_cases hkb : key b = key r₀
    · exact eq_of_key_eq hd ha hb (hka.trans hkb.symm)
    · rw [if_pos hka, if_neg hkb, eq_of_key_eq hd ha hr₀ hka] at hab
      exact absurd hab.symm (hfresh b hb hkb)
  · by_cases hkb : key b = key r₀
    · rw [if_neg hka, if_pos hkb, eq_of_key_eq hd hb hr₀ hkb] at hab
      exact absurd hab (hfresh a ha hka)
    · rw [if_neg hka, if_neg hkb] at hab
      exact eq_of_key_eq hd ha hb hab

theorem lookup_rekey (hfresh : ∀ r ∈ rows, key r ≠ key r₀ → key r ≠ key (f r₀)) :
    lookup key (modifyFirst p f rows)
      = update (update (lookup key rows) (key r₀) none) (key (f r₀)) (some (f r₀)) := by
  have hd' := distinct_rekey hd hfound hfresh
  funext k
  apply Option.ext
  intro r
  rw [lookup_eq_some_iff hd', mem_modifyFirst hd hfound]
  by_cases hk : k = key (f r₀)
  · subst hk
    rw [update_self]
    constructor
    · rintro ⟨rfl | ⟨hr, hne⟩, heq⟩
      · rfl
      · exact absurd heq (hfresh r hr hne)
    · intro h
      cases h
      exact ⟨.inl rfl, rfl⟩
  · rw [update_of_ne hk]
    by_cases hk₀ : k = key r₀
    · subst hk₀
      rw [update_self]
      constructor
      · rintro ⟨rfl | ⟨-, hne⟩, heq⟩
        · exact absurd heq.symm hk
        · exact absurd heq hne
      · nofun
    · rw [update_of_ne hk₀, lookup_eq_some_iff hd]
      constructor
      · rintro ⟨rfl | ⟨hr, -⟩, heq⟩
        · exact absurd heq.symm hk
        · exact ⟨hr, heq⟩
      · rintro ⟨hr, rfl⟩
        exact ⟨.inr ⟨hr, hk₀⟩, rfl⟩

/-- An assignment to the row `r₀` that keeps its key. -/
theorem lookup_modifyFirst (hkey : key (f r₀) = key r₀) :
    lookup key (modifyFirst p f rows) = update (lookup key rows) (key r₀) (some (f r₀)) := by
  rw [lookup_rekey hd hfound fun r _ hne => hkey ▸ hne, hkey, update_idem]

end

end Rows
