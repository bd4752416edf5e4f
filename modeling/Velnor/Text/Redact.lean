/-
  Replacing every occurrence of a set of patterns by a mark, leftmost first and
  the longest at each place, without overlaps.

  `Redacted patterns mark text out` is that replacement as a relation: it has
  one result, and when no pattern shares an element with the mark the result has
  no occurrence left.  So a procedure is correct once its result is shown to be
  related to its input.
-/
import Velnor.Text.Search

namespace Velnor.Text

open List

variable {α : Type*} {patterns : List (List α)} {mark text out pat : List α} {i : Nat}

/-! ## The leftmost-longest match -/

/-- `pat` at position `i` is what a leftmost-longest search of the text reports. -/
structure FirstMatch (patterns : List (List α)) (text : List α) (i : Nat) (pat : List α) :
    Prop where
  mem : pat ∈ patterns
  occurs : Occurs pat text i
  leftmost : ∀ other ∈ patterns, ∀ j, Occurs other text j → i ≤ j
  longest : ∀ other ∈ patterns, Occurs other text i → other.length ≤ pat.length

/-- Two patterns at one position: the one that is not longer begins the other. -/
theorem Occurs.isPrefix {other : List α} (h : Occurs pat text i) (hother : Occurs other text i)
    (hlen : pat.length ≤ other.length) : pat <+: other :=
  prefix_of_prefix_length_le h.2 hother.2 hlen

namespace FirstMatch

theorem unique {j : Nat} {other : List α} (h : FirstMatch patterns text i pat)
    (hother : FirstMatch patterns text j other) : i = j ∧ pat = other := by
  have hij : i = j := Nat.le_antisymm (h.leftmost other hother.mem j hother.occurs)
    (hother.leftmost pat h.mem i h.occurs)
  subst hij
  have hlen : pat.length = other.length := Nat.le_antisymm
    (hother.longest pat h.mem h.occurs) (h.longest other hother.mem hother.occurs)
  exact ⟨rfl, (h.occurs.isPrefix hother.occurs hlen.le).eq_of_length hlen⟩

/-- No pattern stands in front of the match. -/
theorem not_infix_take (h : FirstMatch patterns text i pat) {other : List α}
    (hmem : other ∈ patterns) (hne : other ≠ []) : ¬ other <:+: text.take i := by
  intro hinfix
  obtain ⟨j, hj⟩ := infix_iff_occurs.mp hinfix
  have hend := hj.end_le
  have hpos := length_pos_iff.mpr hne
  have hi := h.occurs.1
  rw [length_take, Nat.min_eq_left hi] at hend
  have hocc : Occurs other text j := by
    refine ⟨by omega, ?_⟩
    have hprefix := hj.2
    rw [drop_take] at hprefix
    exact hprefix.trans <| take_prefix _ _
  have hle := h.leftmost other hmem j hocc
  omega

end FirstMatch

/-! ## Replacement -/

/-- `out` is the text with every match replaced by the mark. -/
inductive Redacted (patterns : List (List α)) (mark : List α) : List α → List α → Prop
  | clean {text : List α} (h : ∀ pat ∈ patterns, ¬ pat <:+: text) : Redacted patterns mark text text
  | marked {text out pat : List α} {i : Nat} (hfirst : FirstMatch patterns text i pat)
      (hrest : Redacted patterns mark (text.drop (i + pat.length)) out) :
      Redacted patterns mark text (text.take i ++ mark ++ out)

/-- A pattern that shares no element with the mark stands on one side of it. -/
theorem infix_of_infix_mark {before after : List α} (hmark : mark ≠ [])
    (hdisjoint : ∀ c ∈ pat, c ∉ mark) (h : pat <:+: before ++ mark ++ after) :
    pat <:+: before ∨ pat <:+: after := by
  obtain ⟨m, _, rfl⟩ := exists_cons_of_ne_nil hmark
  rw [append_assoc, infix_append_iff] at h
  rcases h with h | h | ⟨front, back, rfl, hfront, hback⟩
  · exact .inl h
  · rw [infix_append_iff] at h
    rcases h with h | h | ⟨front, back, rfl, hfront, hback⟩
    · -- inside the mark
      cases pat with
      | nil => exact .inl nil_infix
      | cons c => exact absurd (h.subset mem_cons_self) (hdisjoint c mem_cons_self)
    · exact .inr h
    · -- across the end of the mark
      cases front with
      | nil => exact .inr hback.isInfix
      | cons c =>
        exact absurd (hfront.subset mem_cons_self) (hdisjoint c mem_cons_self)
  · -- across the beginning of the mark
    rw [cons_append, prefix_cons_iff] at hback
    rcases hback with rfl | ⟨back, rfl, -⟩
    · rw [append_nil]
      exact .inl hfront.isInfix
    · exact absurd mem_cons_self (hdisjoint m (mem_append_right _ mem_cons_self))

namespace Redacted

theorem unique {out' : List α} (h : Redacted patterns mark text out)
    (h' : Redacted patterns mark text out') : out = out' := by
  induction h generalizing out' with
  | clean hclean =>
    cases h' with
    | clean => rfl
    | marked hfirst =>
      exact absurd (infix_iff_occurs.mpr ⟨_, hfirst.occurs⟩) (hclean _ hfirst.mem)
  | marked hfirst _ ih =>
    cases h' with
    | clean hclean => exact absurd (infix_iff_occurs.mpr ⟨_, hfirst.occurs⟩) (hclean _ hfirst.mem)
    | marked hfirst' hrest' =>
      obtain ⟨rfl, rfl⟩ := hfirst.unique hfirst'
      rw [ih hrest']

/-- Nothing is left, and the mark makes nothing new. -/
theorem not_infix (h : Redacted patterns mark text out) (hmark : mark ≠ [])
    (hne : ∀ pat ∈ patterns, pat ≠ []) (hdisjoint : ∀ pat ∈ patterns, ∀ c ∈ pat, c ∉ mark) :
    ∀ pat ∈ patterns, ¬ pat <:+: out := by
  induction h with
  | clean hclean => exact hclean
  | marked hfirst _ ih =>
    intro pat hmem hinfix
    rcases infix_of_infix_mark hmark (hdisjoint pat hmem) hinfix with hbefore | hafter
    · exact hfirst.not_infix_take hmem (hne pat hmem) hbefore
    · exact ih pat hmem hafter

end Redacted

/-! ## Lists of matches -/

/-- The matches from `offset` on, as start and end positions; `rest` is the text
    from there. -/
inductive Matches (patterns : List (List α)) : List α → Nat → List (Nat × Nat) → Prop
  | nil {rest : List α} {offset : Nat} (h : ∀ pat ∈ patterns, ¬ pat <:+: rest) :
    Matches patterns rest offset []
  | cons {rest pat : List α} {offset i : Nat} {found : List (Nat × Nat)}
      (hfirst : FirstMatch patterns rest i pat)
      (hrest : Matches patterns (rest.drop (i + pat.length)) (offset + (i + pat.length)) found) :
      Matches patterns rest offset ((offset + i, offset + (i + pat.length)) :: found)

/-- The text with the listed stretches replaced by the mark, from `last` on. -/
def replaceMatches (mark text : List α) : Nat → List (Nat × Nat) → List α
  | last, [] => text.drop last
  | last, (start, stop) :: found =>
    (text.drop last).take (start - last) ++ mark ++ replaceMatches mark text stop found

theorem Matches.redacted {last : Nat} {found : List (Nat × Nat)}
    (h : Matches patterns (text.drop last) last found) :
    Redacted patterns mark (text.drop last) (replaceMatches mark text last found) := by
  generalize hrest : text.drop last = rest at h
  induction h with
  | nil hclean =>
    rw [replaceMatches, hrest]
    exact .clean hclean
  | @cons rest pat offset i _ hfirst _ ih =>
    have hstep : text.drop (offset + (i + pat.length)) = rest.drop (i + pat.length) := by
      rw [← hrest, drop_drop]
    rw [replaceMatches, hrest, Nat.add_sub_cancel_left]
    exact .marked hfirst (ih hstep)

end Velnor.Text
