/-
  Ordinal comparison without regard to case (context_value.rs): two strings are
  compared as the lists of their uppercase characters, so the order of such
  lists gives every law, and the affix tests ask for a part of the folded text.
-/
import Velnor.Context.Value

namespace Velnor.Context

open List

section

variable (simpleUppercase : Char → Char)

/-- The slices of a length, `slice::windows`. -/
def windows {α : Type*} (size : Nat) (items : List α) : List (List α) :=
  (range (items.length + 1 - size)).map fun start => (items.drop start).take size

def ordinalIgnoreCaseContains (haystack needle : Str) : Bool :=
  if needle = [] then true
  else
    let haystack := haystack.map (simpleOrdinalUppercase simpleUppercase)
    let needle := needle.map (simpleOrdinalUppercase simpleUppercase)
    decide (needle.length ≤ haystack.length) && (windows needle.length haystack).any (· == needle)

def ordinalIgnoreCaseStartsWith (haystack start : Str) : Bool :=
  let haystack := haystack.map (simpleOrdinalUppercase simpleUppercase)
  let start := start.map (simpleOrdinalUppercase simpleUppercase)
  decide (haystack.length ≥ start.length) && haystack.take start.length == start

def ordinalIgnoreCaseEndsWith (haystack ending : Str) : Bool :=
  let haystack := haystack.map (simpleOrdinalUppercase simpleUppercase)
  let ending := ending.map (simpleOrdinalUppercase simpleUppercase)
  decide (haystack.length ≥ ending.length)
    && haystack.drop (haystack.length - ending.length) == ending

end

variable {upper : Char → Char} {a b : Str}

/-- The strings are compared as their uppercase characters are. -/
theorem ordinalIgnoreCaseCmp_eq_compare : ordinalIgnoreCaseCmp upper a b =
    compare ((a.map (simpleOrdinalUppercase upper)).map Char.toNat)
      ((b.map (simpleOrdinalUppercase upper)).map Char.toNat) := by
  induction a generalizing b with
  | nil => cases b <;> rfl
  | cons c a ih =>
    cases b with
    | nil => rfl
    | cons d b =>
      rw [ordinalIgnoreCaseCmp, ih, List.compare_eq_compareLex]
      simp only [map_cons, List.compareLex_cons_cons]
      cases compare (simpleOrdinalUppercase upper c).toNat _ <;> rfl

theorem ordinalIgnoreCaseCmp_swap (upper : Char → Char) (a b : Str) :
    ordinalIgnoreCaseCmp upper b a = (ordinalIgnoreCaseCmp upper a b).swap := by
  rw [ordinalIgnoreCaseCmp_eq_compare, ordinalIgnoreCaseCmp_eq_compare]
  exact Std.OrientedCmp.eq_swap

theorem ordinalIgnoreCaseCmp_eq_iff : ordinalIgnoreCaseCmp upper a b = .eq ↔
    a.map (simpleOrdinalUppercase upper) = b.map (simpleOrdinalUppercase upper) := by
  rw [ordinalIgnoreCaseCmp_eq_compare, Std.LawfulEqCmp.compare_eq_iff_eq]
  exact map_inj_right fun _ _ => Char.toNat_inj.mp

/-- A window of the text is a part of it. -/
theorem mem_windows_iff {α : Type*} {part items : List α} :
    part ∈ windows part.length items ↔ part <:+: items := by
  simp only [windows, mem_map, mem_range, Text.infix_iff_occurs]
  refine exists_congr fun start => ⟨fun h => ⟨by omega, ?_⟩, fun h => ⟨?_, ?_⟩⟩
  · exact h.2 ▸ take_prefix ..
  · have := h.end_le
    omega
  · exact (prefix_iff_eq_take.mp h.2).symm

/-- The comparison is a total preorder, the equality is its equivalence, and
    the affix tests find an equal part of the text. -/
theorem ordinal_ignore_case_laws (upper : Char → Char) :
    (∀ a b, ordinalIgnoreCaseCmp upper b a = (ordinalIgnoreCaseCmp upper a b).swap)
      ∧ (∀ a b c, (ordinalIgnoreCaseCmp upper a b).isLE → (ordinalIgnoreCaseCmp upper b c).isLE →
        (ordinalIgnoreCaseCmp upper a c).isLE)
      ∧ (∀ a b, (ordinalIgnoreCaseCmp upper a b).isLE ∨ (ordinalIgnoreCaseCmp upper b a).isLE)
      ∧ (∀ a b, (ordinalIgnoreCaseCmp upper a b).isLE ∧ (ordinalIgnoreCaseCmp upper b a).isLE ↔
        ordinalIgnoreCaseEq upper a b = true)
      ∧ ∀ haystack needle,
        (ordinalIgnoreCaseContains upper haystack needle = true ↔
          ∃ part, part <:+: haystack ∧ ordinalIgnoreCaseEq upper part needle = true)
        ∧ (ordinalIgnoreCaseStartsWith upper haystack needle = true ↔
          ∃ part, part <+: haystack ∧ ordinalIgnoreCaseEq upper part needle = true)
        ∧ (ordinalIgnoreCaseEndsWith upper haystack needle = true ↔
          ∃ part, part <:+ haystack ∧ ordinalIgnoreCaseEq upper part needle = true) := by
  have hequal : ∀ a b, ordinalIgnoreCaseEq upper a b = true ↔
      b.map (simpleOrdinalUppercase upper) = a.map (simpleOrdinalUppercase upper) :=
    fun a b => (beq_iff_eq.trans ordinalIgnoreCaseCmp_eq_iff).trans eq_comm
  refine ⟨ordinalIgnoreCaseCmp_swap upper, fun a b c => ?_, fun a b => ?_, fun a b => ?_,
    fun haystack needle => ?_⟩
  · simp only [ordinalIgnoreCaseCmp_eq_compare]
    exact Std.TransCmp.isLE_trans
  · rw [ordinalIgnoreCaseCmp_swap upper a b]
    cases ordinalIgnoreCaseCmp upper a b <;> decide
  · rw [ordinalIgnoreCaseCmp_swap upper a b, ordinalIgnoreCaseEq]
    cases ordinalIgnoreCaseCmp upper a b <;> decide
  simp only [hequal, ← infix_map_iff, ← prefix_map_iff, ← suffix_map_iff]
  refine ⟨?_, ?_, ?_⟩
  · unfold ordinalIgnoreCaseContains
    by_cases hnil : needle = []
    · rw [if_pos hnil, hnil]
      exact iff_of_true rfl <| nil_infix ..
    · rw [if_neg hnil, Bool.and_eq_true, any_beq', contains_iff_mem, mem_windows_iff,
        decide_eq_true_eq]
      exact and_iff_right_of_imp IsInfix.length_le
  · rw [ordinalIgnoreCaseStartsWith, Bool.and_eq_true, beq_iff_eq, decide_eq_true_eq, eq_comm,
      ← prefix_iff_eq_take]
    exact and_iff_right_of_imp IsPrefix.length_le
  · rw [ordinalIgnoreCaseEndsWith, Bool.and_eq_true, beq_iff_eq, decide_eq_true_eq, eq_comm,
      ← suffix_iff_eq_drop]
    exact and_iff_right_of_imp IsSuffix.length_le

end Velnor.Context
