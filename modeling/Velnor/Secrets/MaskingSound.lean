/-
  Masking hides everything that is registered.  Whichever way a masker goes (its
  automaton, the literal search, or nothing when nothing is registered), the
  masked text is the leftmost-longest replacement of its patterns by the
  sentinel, so the ways agree, nothing is left, and masking twice is masking
  once.
-/
import Velnor.Secrets.Redaction

namespace Velnor.Secrets

open Text List

/-! ## The literal search selects the leftmost-longest match -/

/-- At one place a longer pattern has more bytes. -/
theorem utf8Len_lt_of_isPrefix {short long : Str} (h : short <+: long)
    (hlt : short.length < long.length) : utf8Len short < utf8Len long := by
  obtain ⟨rest, rfl⟩ := h
  rw [length_append] at hlt
  cases rest with
  | nil =>
    rw [length_nil] at hlt
    omega
  | cons c =>
    have hc := c.utf8Size_pos
    simp only [utf8Len, map_append, sum_append, map_cons, sum_cons]
    omega

section Select

variable {patterns : List Str} {text pattern : Str}

/-- What the search has selected after the given patterns. -/
def Selected (patterns : List Str) (text : Str) : Option (Nat × Str) → Prop
  | none => ∀ pattern ∈ patterns, ¬ pattern <:+: text
  | some (start, pattern) => FirstMatch patterns text start pattern

variable {selected : Option (Nat × Str)} {start : Nat}

/-- A pattern that does not occur changes nothing. -/
theorem Selected.skip (h : Selected patterns text selected) (hnot : ¬ pattern <:+: text) :
    Selected (patterns ++ [pattern]) text selected := by
  have hno : ∀ j, ¬ Occurs pattern text j := fun j hocc => hnot (infix_iff_occurs.mpr ⟨j, hocc⟩)
  cases selected with
  | none => exact forall_mem_append.mpr ⟨h, forall_mem_singleton.mpr hnot⟩
  | some =>
    refine ⟨mem_append_left _ h.mem, h.occurs, ?_, ?_⟩
    · refine forall_mem_append.mpr ⟨h.leftmost, forall_mem_singleton.mpr fun j hocc => ?_⟩
      exact absurd hocc (hno j)
    · refine forall_mem_append.mpr ⟨h.longest, forall_mem_singleton.mpr fun hocc => ?_⟩
      exact absurd hocc (hno _)

/-- The new pattern is the best match when nothing before it comes earlier, or is
    longer at its place. -/
theorem firstMatch_new (hfind : find? pattern text = some start)
    (hearlier : ∀ other ∈ patterns, ∀ j, Occurs other text j → start ≤ j)
    (hlonger : ∀ other ∈ patterns, Occurs other text start → other.length ≤ pattern.length) :
    FirstMatch (patterns ++ [pattern]) text start pattern := by
  obtain ⟨hocc, hfirst⟩ := find?_eq_some_iff.mp hfind
  refine ⟨mem_append_right _ (mem_singleton_self _), hocc, ?_, ?_⟩
  · refine forall_mem_append.mpr ⟨hearlier, forall_mem_singleton.mpr fun j hother => ?_⟩
    exact Nat.le_of_not_lt fun hlt => hfirst j hlt hother
  · exact forall_mem_append.mpr ⟨hlonger, forall_mem_singleton.mpr fun _ => le_refl _⟩

/-- The old match stays the best when the new pattern comes later, or at its
    place is not longer. -/
theorem firstMatch_old {oldStart : Nat} {old : Str}
    (hold : FirstMatch patterns text oldStart old) (hfind : find? pattern text = some start)
    (hlater : oldStart ≤ start) (hshorter : start = oldStart → pattern.length ≤ old.length) :
    FirstMatch (patterns ++ [pattern]) text oldStart old := by
  obtain ⟨-, hfirst⟩ := find?_eq_some_iff.mp hfind
  have hstart : ∀ j, Occurs pattern text j → start ≤ j :=
    fun j hocc => Nat.le_of_not_lt fun hlt => hfirst j hlt hocc
  refine ⟨mem_append_left _ hold.mem, hold.occurs, ?_, ?_⟩
  · refine forall_mem_append.mpr ⟨hold.leftmost, forall_mem_singleton.mpr fun j hother => ?_⟩
    exact hlater.trans (hstart j hother)
  · refine forall_mem_append.mpr ⟨hold.longest, forall_mem_singleton.mpr fun hother => ?_⟩
    exact hshorter (Nat.le_antisymm (hstart oldStart hother) hlater)

theorem Selected.step (h : Selected patterns text selected) (pattern : Str) :
    Selected (patterns ++ [pattern]) text (selectStep text selected pattern) := by
  unfold selectStep
  cases hfind : find? pattern text with
  | none => exact h.skip (find?_eq_none_iff.mp hfind)
  | some start =>
    obtain ⟨hocc, -⟩ := find?_eq_some_iff.mp hfind
    cases selected with
    | none =>
      have hno : ∀ other ∈ patterns, ∀ j, ¬ Occurs other text j :=
        fun other hmem j hother => h other hmem (infix_iff_occurs.mpr ⟨j, hother⟩)
      exact firstMatch_new hfind (fun other hmem j hother => absurd hother (hno other hmem j))
        fun other hmem hother => absurd hother (hno other hmem start)
    | some best =>
      obtain ⟨oldStart, old⟩ := best
      have hold : FirstMatch patterns text oldStart old := h
      dsimp only
      split_ifs with hbetter
      · refine firstMatch_new hfind ?_ ?_
        · intro other hmem j hother
          have hle := hold.leftmost other hmem j hother
          omega
        · intro other hmem hother
          have hle := hold.leftmost other hmem start hother
          obtain ⟨rfl, _⟩ : start = oldStart ∧ utf8Len pattern > utf8Len old := by omega
          refine (hold.longest other hmem hother).trans (Nat.le_of_not_lt fun hlt => ?_)
          have hfewer := utf8Len_lt_of_isPrefix (hocc.isPrefix hold.occurs hlt.le) hlt
          omega
      · refine firstMatch_old hold hfind (by omega) ?_
        rintro rfl
        refine Nat.le_of_not_lt fun hlt => ?_
        have hfewer := utf8Len_lt_of_isPrefix (hold.occurs.isPrefix hocc hlt.le) hlt
        omega

theorem Selected.foldl (h : Selected patterns text selected) (more : List Str) :
    Selected (patterns ++ more) text (more.foldl (selectStep text) selected) := by
  induction more generalizing patterns selected with
  | nil =>
    rw [append_nil]
    exact h
  | cons pattern _ ih =>
    have hstep := ih (h.step pattern)
    rw [append_assoc] at hstep
    exact hstep

theorem selected_select (patterns : List Str) (text : Str) :
    Selected patterns text (select patterns text) := by
  have hnone : Selected [] text none := fun _ hmem => absurd hmem not_mem_nil
  exact hnone.foldl patterns

theorem not_infix_of_select (h : select patterns text = none) :
    ∀ pattern ∈ patterns, ¬ pattern <:+: text := by
  have hselected := selected_select patterns text
  rw [h] at hselected
  exact hselected

theorem firstMatch_of_select (h : select patterns text = some (start, pattern)) :
    FirstMatch patterns text start pattern := by
  have hselected := selected_select patterns text
  rw [h] at hselected
  exact hselected

end Select

variable (patterns : List Str) (hne : ∀ pattern ∈ patterns, pattern ≠ [])

/-- The literal search computes the leftmost-longest replacement. -/
theorem maskLiterals_redacted (value : Str) :
    Redacted patterns redaction value (maskLiterals patterns hne value) := by
  induction value using maskLiterals.induct patterns hne with
  | case1 =>
    rw [maskLiterals, if_pos rfl]
    refine .clean fun pattern hmem hinfix => hne pattern hmem ?_
    exact eq_nil_of_infix_nil hinfix
  | case2 _ hvalue hselect =>
    rw [maskLiterals, if_neg hvalue]
    split
    next => exact .clean (not_infix_of_select hselect)
    next hsome =>
      rw [hselect] at hsome
      cases hsome
  | case3 _ hvalue _ _ hselect ih =>
    rw [maskLiterals, if_neg hvalue]
    split
    next hnone =>
      rw [hselect] at hnone
      cases hnone
    next hsome =>
      rw [hselect] at hsome
      cases hsome
      exact .marked (firstMatch_of_select hselect) ih

/-! ## The masker -/

section Masker

variable {library : AhoCorasick} (masker : SecretMasker library)

/-- Masking is the leftmost-longest replacement of the registered patterns. -/
theorem mask_redacted (text : Str) :
    Redacted masker.patterns redaction text (masker.mask text) := by
  unfold SecretMasker.mask
  cases hautomaton : masker.automaton with
  | some automaton =>
    have hmatches : Matches masker.patterns (text.drop 0) 0 (library.findIter automaton text) :=
      library.leftmostLongest (masker.compiled automaton hautomaton) text
    exact hmatches.redacted
  | none =>
    split_ifs with hfallback
    · exact maskLiterals_redacted masker.patterns masker.patterns_ne_nil text
    · rw [masker.covered hautomaton (Bool.eq_false_iff.mpr hfallback)]
      exact .clean fun _ hmem => absurd hmem not_mem_nil

theorem containsSecret_eq_false_iff (text : Str) :
    masker.containsSecret text = false ↔ ∀ pattern ∈ masker.patterns, ¬ pattern <:+: text := by
  unfold SecretMasker.containsSecret
  cases hautomaton : masker.automaton with
  | some automaton =>
    have hmatches := library.leftmostLongest (masker.compiled automaton hautomaton) text
    dsimp only
    rw [library.find_eq, Option.isSome_eq_false_iff, Option.isNone_iff_eq_none]
    generalize library.findIter automaton text = found at hmatches ⊢
    cases hmatches with
    | nil hclean => exact ⟨fun _ => hclean, fun _ => rfl⟩
    | cons hfirst =>
      constructor
      · intro h
        cases h
      · intro hclean
        exact absurd (infix_iff_occurs.mpr ⟨_, hfirst.occurs⟩) (hclean _ hfirst.mem)
  | none =>
    cases hfallback : masker.literalFallback with
    | false =>
      rw [masker.covered hautomaton hfallback]
      exact ⟨fun _ _ hmem => absurd hmem not_mem_nil, fun _ => rfl⟩
    | true =>
      rw [Bool.true_and, any_eq_false]
      refine forall₂_congr fun pattern _ => ?_
      rw [Bool.not_eq_true, Option.isSome_eq_false_iff, Option.isNone_iff_eq_none,
        find?_eq_none_iff]

end Masker

/-- With no asterisk in a registered pattern, the masked text has no registered
    pattern, masking it again changes nothing, and both ways of masking give the
    leftmost-longest replacement. -/
theorem masking_complete_and_stable (library : AhoCorasick) (values : List Str)
    (text : Str)
    (hstar : ∀ pattern ∈ (SecretMasker.new library values).patterns, '*' ∉ pattern) :
    (SecretMasker.new library values).containsSecret ((SecretMasker.new library values).mask text)
        = false
      ∧ (∀ pattern ∈ (SecretMasker.new library values).patterns,
          ¬ pattern <:+: (SecretMasker.new library values).mask text)
      ∧ (SecretMasker.new library values).mask ((SecretMasker.new library values).mask text)
        = (SecretMasker.new library values).mask text
      ∧ (SecretMasker.new library values).mask text
        = (SecretMasker.new library values).maskLiteralFallback text
      ∧ Redacted (SecretMasker.new library values).patterns redaction text
          ((SecretMasker.new library values).mask text) := by
  generalize SecretMasker.new library values = masker at hstar
  have hdisjoint : ∀ pattern ∈ masker.patterns, ∀ c ∈ pattern, c ∉ redaction := by
    intro pattern hmem _ hc hredaction
    have hasterisk : redaction = replicate 3 '*' := rfl
    rw [hasterisk] at hredaction
    exact hstar pattern hmem (eq_of_mem_replicate hredaction ▸ hc)
  have hmask := mask_redacted masker text
  have hclean := hmask.not_infix (by decide) masker.patterns_ne_nil hdisjoint
  have hliteral := maskLiterals_redacted masker.patterns masker.patterns_ne_nil text
  exact ⟨(containsSecret_eq_false_iff masker _).mpr hclean, hclean,
    (mask_redacted masker _).unique (.clean hclean),
    hmask.unique hliteral, hmask⟩

/-! ## A matcher by literal search -/

/-- The matches of non-empty patterns from `offset` on, found by the literal search. -/
def literalMatches (patterns : List Str) (hne : ∀ pattern ∈ patterns, pattern ≠ [])
    (text : Str) (offset : Nat) : List (Nat × Nat) :=
  if text = [] then []
  else
    match _h : select patterns text with
    | none => []
    | some (start, pattern) =>
      (offset + start, offset + (start + pattern.length))
        :: literalMatches patterns hne (text.drop (start + pattern.length))
          (offset + (start + pattern.length))
termination_by text.length
decreasing_by
  have hpattern := List.length_pos_iff.mpr (hne pattern (select_mem _h))
  have htext := List.length_pos_iff.mpr ‹¬ text = []›
  rw [List.length_drop]
  omega

theorem literalMatches_matches (text : Str) (offset : Nat) :
    Matches patterns text offset (literalMatches patterns hne text offset) := by
  induction text, offset using literalMatches.induct patterns hne with
  | case1 =>
    rw [literalMatches, if_pos rfl]
    refine .nil fun pattern hmem hinfix => hne pattern hmem ?_
    exact eq_nil_of_infix_nil hinfix
  | case2 _ _ htext hselect =>
    rw [literalMatches, if_neg htext]
    split
    next => exact .nil (not_infix_of_select hselect)
    next hsome =>
      rw [hselect] at hsome
      cases hsome
  | case3 _ _ htext _ _ hselect ih =>
    rw [literalMatches, if_neg htext]
    split
    next hnone =>
      rw [hselect] at hnone
      cases hnone
    next hsome =>
      rw [hselect] at hsome
      cases hsome
      exact .cons (firstMatch_of_select hselect) ih

/-- The literal search as an automaton; it refuses an empty pattern. -/
def literalSearch : AhoCorasick where
  Automaton := { patterns : List Str // ∀ pattern ∈ patterns, pattern ≠ [] }
  build := fun patterns =>
    if h : ∀ pattern ∈ patterns, pattern ≠ [] then some ⟨patterns, h⟩ else none
  find := fun automaton text => (literalMatches automaton.1 automaton.2 text 0).head?
  findIter := fun automaton text => literalMatches automaton.1 automaton.2 text 0
  leftmostLongest := by
    intro patterns automaton hbuild text
    split_ifs at hbuild with hne
    cases hbuild
    exact literalMatches_matches patterns hne text 0
  find_eq := fun _ _ => rfl

/-- A token in plain and encoded form, masked through an automaton. -/
theorem masking_complete_and_stable_token :
    (SecretMasker.new literalSearch ["hunter2"]).mask "a hunter2 b" = "a *** b"
      ∧ (SecretMasker.new literalSearch ["hunter2"]).containsSecret
          ((SecretMasker.new literalSearch ["hunter2"]).mask "a hunter2 b")
        = false :=
  ⟨by decide +kernel,
    (masking_complete_and_stable literalSearch ["hunter2"] "a hunter2 b" (by decide +kernel)).1⟩

end Velnor.Secrets
