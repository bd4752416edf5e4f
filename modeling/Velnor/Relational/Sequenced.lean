/-
  Tables under an `INTEGER PRIMARY KEY AUTOINCREMENT`: every inserted row gets
  an id above all ids the table ever handed out, so the rows lie in id order
  and a deletion never lets an id come back.

  The three facts are fields of the structure.  `ORDER BY id` is then the order
  of the rows, `MIN(id)` the head of what a `WHERE` clause keeps and `MAX(id)`
  its last element.
-/
import Mathlib

namespace Relational

open List

universe u

/-- One row and its id. -/
structure Numbered (ρ : Type u) where
  id : Nat
  row : ρ
  deriving DecidableEq, Repr

/-- The rows lie in the order of their ids, which are distinct. -/
def InIdOrder {ρ : Type u} (rows : List (Numbered ρ)) : Prop := rows.Pairwise fun a b => a.id < b.id

/-- Rows in id order, with the last id handed out (`sqlite_sequence`). -/
structure Sequenced (ρ : Type u) where
  rows : List (Numbered ρ)
  last : Nat
  sorted : InIdOrder rows
  positive : ∀ r ∈ rows, 0 < r.id
  bounded : ∀ r ∈ rows, r.id ≤ last

/-- The largest row id; an insertion after it fails (`SQLITE_FULL`). -/
def maxRowId : Nat := 2 ^ 63 - 1

namespace Sequenced

variable {ρ : Type u}

/-- The table with no rows, before its first insertion. -/
def empty : Sequenced ρ where
  rows := []
  last := 0
  sorted := List.Pairwise.nil
  positive := fun _ h => absurd h not_mem_nil
  bounded := fun _ h => absurd h not_mem_nil

/-! ## `INSERT` -/

variable (t : Sequenced ρ)

theorem sorted_insert (r : ρ) : InIdOrder (t.rows ++ [⟨t.last + 1, r⟩]) := by
  refine pairwise_append.mpr ?_
  refine ⟨t.sorted, pairwise_singleton _ _, ?_⟩
  intro a ha _ hb
  rw [mem_singleton] at hb
  subst hb
  exact Nat.lt_succ_of_le (t.bounded a ha)

/-- `INSERT INTO`: the row gets the next id. -/
def insert (r : ρ) : Sequenced ρ where
  rows := t.rows ++ [⟨t.last + 1, r⟩]
  last := t.last + 1
  sorted := t.sorted_insert r
  positive := by
    intro a ha
    rcases mem_append.mp ha with ha | ha
    · exact t.positive a ha
    · rw [mem_singleton.mp ha]
      exact Nat.succ_pos _
  bounded := by
    intro a ha
    rcases mem_append.mp ha with ha | ha
    · exact Nat.le_succ_of_le (t.bounded a ha)
    · exact Nat.le_of_eq (congrArg Numbered.id (mem_singleton.mp ha))

/-! ## `DELETE` -/

/-- `DELETE WHERE p`. -/
def deleteWhere (p : Numbered ρ → Bool) : Sequenced ρ where
  rows := t.rows.filter fun r => !p r
  last := t.last
  sorted := t.sorted.sublist filter_sublist
  positive := fun r hr => t.positive r (mem_of_mem_filter hr)
  bounded := fun r hr => t.bounded r (mem_of_mem_filter hr)

/-! ## `SELECT` -/

/-- `SELECT * WHERE p ORDER BY id`. -/
def selectWhere (p : Numbered ρ → Bool) : List (Numbered ρ) := t.rows.filter p

/-- `SELECT MIN(id) WHERE p`. -/
def minId (p : Numbered ρ → Bool) : Option Nat := (t.selectWhere p).head?.map Numbered.id

/-- `SELECT MAX(id) WHERE p`. -/
def maxId (p : Numbered ρ → Bool) : Option Nat := (t.selectWhere p).getLast?.map Numbered.id

end Sequenced

/-! ## Lists in id order -/

section Sorted

variable {ρ : Type u} {l : List (Numbered ρ)}

variable {a b : Numbered ρ}

/-- The head of a list in id order has the least id. -/
theorem head_id_le (h : InIdOrder l) (ha : l.head? = some a) (hb : b ∈ l) : a.id ≤ b.id := by
  cases l with
  | nil => cases hb
  | cons c =>
    obtain rfl : c = a := by simpa using ha
    rcases mem_cons.mp hb with rfl | hb
    · exact Nat.le_refl _
    · exact Nat.le_of_lt (rel_of_pairwise_cons h hb)

/-- The last element of a list in id order has the greatest id. -/
theorem id_le_getLast (h : InIdOrder l) (ha : l.getLast? = some a) (hb : b ∈ l) : b.id ≤ a.id := by
  obtain ⟨_, rfl⟩ := getLast?_eq_some_iff.mp ha
  rcases mem_append.mp hb with hb | hb
  · have hlt := (pairwise_append.mp h).2.2 b hb a (mem_singleton_self a)
    exact Nat.le_of_lt hlt
  · exact Nat.le_of_eq (congrArg Numbered.id (mem_singleton.mp hb))

/-- In a list in id order an id belongs to one row. -/
theorem eq_of_id_eq (h : InIdOrder l) (ha : a ∈ l) (hb : b ∈ l) (hid : a.id = b.id) : a = b := by
  have hnodup : (l.map Numbered.id).Nodup := pairwise_map.mpr (h.imp fun hlt => Nat.ne_of_lt hlt)
  exact inj_on_of_nodup_map hnodup ha hb hid

end Sorted

end Relational
