/-
  Finite maps as an ordered map keeps them: the entries in increasing order of
  their keys.  The order is a field of the structure, so two maps with the same
  entries are equal and a walk over a map has one order.

  `get?_insert` says what a later read sees, and `mem_entries_iff` turns a scan
  of the entries into reads; a proof about a map needs no more.
-/
import Velnor.Collections.Rows

namespace Collections

open List

universe u v

variable {κ : Type u} {ν : Type v}

/-- Entries with strictly increasing keys. -/
structure OrderedMap (κ : Type u) (ν : Type v) [LinearOrder κ] where
  entries : List (κ × ν)
  sorted : entries.Pairwise fun a b => a.1 < b.1

variable {other : κ} {entries : List (κ × ν)}

namespace OrderedMap

variable [LinearOrder κ]

/-! ## Entry lists -/

/-- Put an entry at its place, over one with the same key. -/
def insertEntries (key : κ) (value : ν) : List (κ × ν) → List (κ × ν)
  | [] => [(key, value)]
  | entry :: rest =>
    if key < entry.1 then (key, value) :: entry :: rest
    else if key = entry.1 then (key, value) :: rest
    else entry :: insertEntries key value rest

variable {key : κ} {value : ν} {map : OrderedMap κ ν}

theorem mem_of_mem_insertEntries {entry : κ × ν} (h : entry ∈ insertEntries key value entries) :
    entry = (key, value) ∨ entry ∈ entries := by
  induction entries with
  | nil => exact .inl (mem_singleton.mp h)
  | cons _ _ ih =>
    rw [insertEntries] at h
    split at h
    · exact mem_cons.mp h
    split at h
    · exact (mem_cons.mp h).imp_right (mem_cons_of_mem _)
    · rcases mem_cons.mp h with rfl | h
      · exact .inr mem_cons_self
      · exact (ih h).imp_right (mem_cons_of_mem _)

theorem pairwise_insertEntries (key : κ) (value : ν) (h : entries.Pairwise fun a b => a.1 < b.1) :
    (insertEntries key value entries).Pairwise fun a b => a.1 < b.1 := by
  induction entries with
  | nil => exact pairwise_singleton ..
  | cons _ _ ih =>
    have hhead := (pairwise_cons.mp h).1
    have hrest := (pairwise_cons.mp h).2
    rw [insertEntries]
    split
    case isTrue hlt =>
      refine pairwise_cons.mpr ⟨fun entry hentry => ?_, h⟩
      rcases mem_cons.mp hentry with rfl | hentry
      · exact hlt
      · exact lt_trans hlt (hhead entry hentry)
    case isFalse hge =>
      split
      case isTrue heq =>
        refine pairwise_cons.mpr ⟨fun entry hentry => ?_, hrest⟩
        rw [heq]
        exact hhead entry hentry
      case isFalse hne =>
        refine pairwise_cons.mpr ⟨fun entry hentry => ?_, ih hrest⟩
        rcases mem_of_mem_insertEntries hentry with rfl | hentry
        · exact lt_of_le_of_ne (not_lt.mp hge) (Ne.symm hne)
        · exact hhead entry hentry

/-! ## Maps -/

instance [DecidableEq ν] : DecidableEq (OrderedMap κ ν) := fun a b =>
  decidable_of_iff (a.entries = b.entries)
    ⟨fun h => by cases a; cases b; cases h; rfl, fun h => h ▸ rfl⟩

def empty : OrderedMap κ ν := ⟨[], List.Pairwise.nil⟩

def insert (map : OrderedMap κ ν) (key : κ) (value : ν) : OrderedMap κ ν :=
  ⟨insertEntries key value map.entries, pairwise_insertEntries key value map.sorted⟩

/-- The entries inserted one after another, the later over the earlier. -/
def extend (map : OrderedMap κ ν) (entries : List (κ × ν)) : OrderedMap κ ν :=
  entries.foldl (fun map entry => map.insert entry.1 entry.2) map

def ofEntries (entries : List (κ × ν)) : OrderedMap κ ν := empty.extend entries

def get? (map : OrderedMap κ ν) (key : κ) : Option ν :=
  (map.entries.find? fun entry => entry.1 = key).map Prod.snd

def keys (map : OrderedMap κ ν) : List κ := map.entries.map Prod.fst

/-! ## Reads -/

theorem get?_entries_insert (key : κ) (value : ν) (other : κ) (entries : List (κ × ν)) :
    ((insertEntries key value entries).find? fun entry => entry.1 = other).map Prod.snd =
      if other = key then some value
      else (entries.find? fun entry => entry.1 = other).map Prod.snd := by
  induction entries with
  | nil => by_cases h : other = key <;> simp [insertEntries, h, eq_comm]
  | cons head _ ih =>
    rw [insertEntries]
    split
    · by_cases h : other = key <;> simp [h, eq_comm]
    split
    case isTrue heq => by_cases h : other = key <;> simp [← heq, h, eq_comm]
    case isFalse hne =>
      by_cases hhead : head.1 = other
      · have hother : other ≠ key := fun h => hne (h.symm.trans hhead.symm)
        simp [hhead, hother]
      · simp [hhead, ih]

theorem get?_insert (map : OrderedMap κ ν) (key : κ) (value : ν) (other : κ) :
    (map.insert key value).get? other = if other = key then some value else map.get? other :=
  get?_entries_insert key value other map.entries

@[simp] theorem get?_insert_self (map : OrderedMap κ ν) (key : κ) (value : ν) :
    (map.insert key value).get? key = some value := by
  rw [get?_insert, if_pos rfl]

theorem get?_insert_of_ne (map : OrderedMap κ ν) (value : ν) (h : other ≠ key) :
    (map.insert key value).get? other = map.get? other := by
  rw [get?_insert, if_neg h]

/-- A scan of the entries sees what reads see. -/
theorem mem_entries_iff (map : OrderedMap κ ν) :
    (key, value) ∈ map.entries ↔ map.get? key = some value := by
  have hkeys : Rows.Distinct Prod.fst map.entries := (pairwise_map.mpr map.sorted).imp ne_of_lt
  refine Iff.trans ?_ Option.map_eq_some_iff.symm
  constructor
  · exact fun h => ⟨(key, value), Rows.lookup_of_mem hkeys h, rfl⟩
  · rintro ⟨entry, hentry, rfl⟩
    obtain rfl := Rows.key_of_lookup hentry
    exact Rows.mem_of_lookup hentry

theorem mem_keys_of_get? (h : map.get? key = some value) : key ∈ map.keys :=
  mem_map.mpr ⟨(key, value), map.mem_entries_iff.mpr h, rfl⟩

theorem mem_keys_iff : key ∈ map.keys ↔ (map.get? key).isSome := by
  constructor
  · intro h
    obtain ⟨_, hentry, rfl⟩ := mem_map.mp h
    rw [map.mem_entries_iff.mp hentry]
    rfl
  · intro h
    obtain ⟨_, hvalue⟩ := Option.isSome_iff_exists.mp h
    exact mem_keys_of_get? hvalue

theorem mem_keys_insert : other ∈ (map.insert key value).keys ↔ other = key ∨ other ∈ map.keys := by
  rw [mem_keys_iff, mem_keys_iff, get?_insert]
  by_cases h : other = key <;> simp [h]

/-! ## Removal -/

def erase (map : OrderedMap κ ν) (key : κ) : OrderedMap κ ν :=
  ⟨map.entries.filter fun entry => entry.1 ≠ key, map.sorted.filter _⟩

theorem get?_erase (map : OrderedMap κ ν) (key other : κ) :
    (map.erase key).get? other = if other = key then none else map.get? other := by
  show (Rows.lookup Prod.fst (map.entries.filter _) other).map Prod.snd = _
  rw [Rows.lookup_filter_ne, Function.update_apply]
  split_ifs
  · rfl
  · rfl

end OrderedMap

end Collections
