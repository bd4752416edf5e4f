/-
  The first occurrence of a pattern in a text, and cutting a text there.
  Texts are lists, so a position counts elements; `Occurs pat text i` says
  that the pattern stands at position `i`.

  `find?_eq_some_iff` and `find?_eq_none_iff` are the two specs every use
  below goes through.
-/
import Mathlib

namespace Velnor.Text

open List

variable {α : Type*} {pat text before after : List α} {c : α} {i : Nat}

/-! ## Occurrences -/

/-- The pattern stands at position `i` of the text. -/
def Occurs (pat text : List α) (i : Nat) : Prop := i ≤ text.length ∧ pat <+: text.drop i

theorem occurs_append (before pat after : List α) :
    Occurs pat (before ++ pat ++ after) before.length := by
  refine ⟨by simp, ?_⟩
  rw [append_assoc, drop_left]
  exact prefix_append pat after

/-- An occurrence cuts the text in three. -/
theorem Occurs.split (h : Occurs pat text i) :
    text = text.take i ++ pat ++ text.drop (i + pat.length) := by
  obtain ⟨rest, hrest⟩ := h.2
  have hdrop : text.drop (i + pat.length) = rest := by
    rw [← drop_drop, ← hrest, drop_left]
  rw [hdrop, append_assoc, hrest, take_append_drop]

theorem Occurs.end_le (h : Occurs pat text i) : i + pat.length ≤ text.length := by
  have hlength := congrArg length h.split
  simp only [length_append, length_take, length_drop] at hlength
  have := h.1
  omega

theorem infix_iff_occurs : pat <:+: text ↔ ∃ i, Occurs pat text i := by
  constructor
  · rintro ⟨before, after, rfl⟩
    exact ⟨before.length, occurs_append before pat after⟩
  · rintro ⟨i, h⟩
    exact ⟨text.take i, text.drop (i + pat.length), h.split.symm⟩

/-! ## Finding the first one -/

variable [DecidableEq α]

/-- Position of the first occurrence. -/
def find? (pat text : List α) : Option Nat := text.tails.findIdx? fun rest => pat.isPrefixOf rest

/-- The text before and after the first occurrence. -/
def splitOnce? (pat text : List α) : Option (List α × List α) :=
  (find? pat text).map fun i => (text.take i, text.drop (i + pat.length))

theorem find?_eq_some_iff :
    find? pat text = some i ↔ Occurs pat text i ∧ ∀ j < i, ¬ Occurs pat text j := by
  simp only [find?, findIdx?_eq_some_iff_getElem, getElem_tails, isPrefixOf_iff_prefix,
    length_tails, Occurs]
  constructor
  · rintro ⟨_, hpre, hfirst⟩
    exact ⟨⟨by omega, hpre⟩, fun j hj => fun hocc => hfirst j hj hocc.2⟩
  · rintro ⟨⟨_, hpre⟩, hfirst⟩
    exact ⟨by omega, hpre, fun j hj hocc => hfirst j hj ⟨by omega, hocc⟩⟩

theorem find?_eq_none_iff : find? pat text = none ↔ ¬ pat <:+: text := by
  rw [infix_iff_occurs, not_exists]
  simp only [find?, findIdx?_eq_none_iff, mem_tails, Bool.eq_false_iff, ne_eq,
    isPrefixOf_iff_prefix]
  constructor
  · intro h i hocc
    exact h _ (drop_suffix i text) hocc.2
  · rintro h _ ⟨front, rfl⟩ _
    exact h front.length ⟨by simp, by rwa [drop_left]⟩

theorem splitOnce?_eq_none_iff : splitOnce? pat text = none ↔ ¬ pat <:+: text := by
  rw [splitOnce?, Option.map_eq_none_iff, find?_eq_none_iff]

/-- The text is cut where the pattern stands, when no earlier place has it. -/
theorem splitOnce?_append (h : find? pat (before ++ pat ++ after) = some before.length) :
    splitOnce? pat (before ++ pat ++ after) = some (before, after) := by
  rw [splitOnce?, h, Option.map_some, ← length_append, drop_left, append_assoc, take_left]

theorem find?_of_notMem (h : c ∉ before) :
    find? (c :: pat) (before ++ (c :: pat) ++ after) = some before.length := by
  rw [find?_eq_some_iff]
  refine ⟨occurs_append before (c :: pat) after, fun j hj hocc => h ?_⟩
  obtain ⟨_, hrest⟩ := hocc.2
  rw [append_assoc, drop_append_of_le_length (by omega), drop_eq_getElem_cons hj] at hrest
  obtain ⟨hc, -⟩ := cons.inj hrest
  exact hc ▸ getElem_mem hj

end Velnor.Text
