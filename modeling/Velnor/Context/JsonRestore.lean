/-
  The tree of the masked document, seen by the reader: how often each marker
  occurs in it, and what the reader restores it to.  That is what the document
  means, unless an object has two names that are the same under its lookup rule.
-/
import Velnor.Context.Dictionary
import Velnor.Context.JsonMarkers
import Velnor.Context.WireRoundTrip

namespace Velnor.Context

open Text Piece Relational List Json OrderedJsonValue

/-! ## Strings and markers of the tree -/

mutual

/-- The strings in value position. -/
def Json.strings : Json → List Str
  | .string token => [token.value]
  | .array elements => elements.strings
  | .object members => members.strings
  | .null | .bool _ | .number _ | .emptyArray _ | .emptyObject _ => []

def Elements.strings : Elements → List Str
  | .one _ value _ => value.strings
  | .more _ value _ others => value.strings ++ others.strings

def Members.strings : Members → List Str
  | .one _ _ value _ => value.strings
  | .more _ _ value _ others => value.strings ++ others.strings

end

mutual

theorem Json.strings_length : (value : Json) → value.strings.length ≤ value.pieces.length
  | .null | .bool _ | .number _ | .emptyArray _ | .emptyObject _ => Nat.zero_le _
  | .string _ => Nat.le_refl _
  | .array elements => by
    have hle := elements.strings_length
    rw [strings, pieces, length_cons, length_append]
    omega
  | .object members => by
    have hle := members.strings_length
    rw [strings, pieces, length_cons, length_append]
    omega

theorem Elements.strings_length :
    (elements : Elements) → elements.strings.length ≤ elements.pieces.length
  | .one before value after => by
    have hle := value.strings_length
    simp only [Elements.strings, Elements.pieces, length_append]
    omega
  | .more before value after others => by
    have hle := value.strings_length
    have hothers := others.strings_length
    simp only [Elements.strings, Elements.pieces, length_append, length_cons]
    omega

theorem Members.strings_length :
    (members : Members) → members.strings.length ≤ members.pieces.length
  | .one key before value after => by
    have hle := value.strings_length
    simp only [Members.strings, Members.pieces, length_append]
    omega
  | .more key before value after others => by
    have hle := value.strings_length
    have hothers := others.strings_length
    simp only [Members.strings, Members.pieces, length_append, length_cons]
    omega

end

/-- The markers of `size` integers, `count` of them used before. -/
def markerTexts (nonce : UInt64) (count size : Nat) : List Str :=
  (List.range' count size).map (marker nonce)

theorem markerTexts_append (nonce : UInt64) (count a b : Nat) :
    markerTexts nonce count (a + b)
      = markerTexts nonce count a ++ markerTexts nonce (count + a) b := by
  rw [markerTexts, ← range'_append_1, map_append]
  rfl

theorem count_markerTexts {nonce : UInt64} {size index : Nat} (h : index < size) :
    (markerTexts nonce 0 size).count (marker nonce index) = 1 := by
  have hinj : Function.Injective (marker nonce) := fun a b hab => (marker_inj hab).2
  rw [markerTexts, count_map_of_injective _ _ hinj]
  exact count_eq_one_of_mem (nodup_range' ..) (mem_range'_1.mpr ⟨Nat.zero_le _, by omega⟩)

section Counting
variable (bits : Double → UInt64) (nonce : UInt64) (target : Str)

/-- Strings of the document and markers are what is counted. -/
theorem markerToken_value (index : Nat) : (markerToken nonce index).value = marker nonce index := by
  rw [StringToken.value, unescape_markerToken]
  rfl

mutual

theorem Json.count_masked (count : Nat) : (value : Json) →
    countOrderedStrings target ((value.masked nonce count).tree bits)
      = value.strings.count target
        + (markerTexts nonce count (bigIntegers value.pieces).length).count target
  | .null | .bool true | .bool false => by
    rw [pieces, bigIntegers_plains]
    rfl
  | .number numeral => by
    rw [masked, pieces, bigIntegers, bigIntegers]
    split
    · rw [tree, countOrderedStrings, markerToken_value, strings]
      simp [markerTexts, count_singleton]
    · rfl
  | .string token => by
    rw [masked, tree, countOrderedStrings, strings, count_singleton]
    simp [markerTexts, pieces, bigIntegers]
  | .emptyArray _ | .emptyObject _ => by
    rw [pieces, bigIntegers, bigIntegers_append, bigIntegers_plains]
    rfl
  | .array elements => by
    simp [masked, tree, pieces, strings, countOrderedStrings, bigIntegers,
      elements.count_masked count]
  | .object members => by
    simp [masked, tree, pieces, strings, countOrderedStrings, bigIntegers,
      members.count_masked count]

theorem Elements.count_masked (count : Nat) : (elements : Elements) →
    countOrderedStringsAll target ((elements.masked nonce count).trees bits)
      = elements.strings.count target
        + (markerTexts nonce count (bigIntegers elements.pieces).length).count target
  | .one _ value _ => by
    simp [Elements.masked, Elements.trees, Elements.pieces, Elements.strings,
      countOrderedStringsAll, value.count_masked count]
  | .more _ value _ others => by
    simp [Elements.masked, Elements.trees, Elements.pieces, Elements.strings,
      countOrderedStringsAll, value.count_masked count, others.count_masked, bigIntegers,
      markerTexts_append]
    omega

theorem Members.count_masked (count : Nat) : (members : Members) →
    countOrderedStringsEntries target ((members.masked nonce count).trees bits)
      = members.strings.count target
        + (markerTexts nonce count (bigIntegers members.pieces).length).count target
  | .one _ _ value _ => by
    simp [Members.masked, Members.trees, Members.pieces, Members.strings,
      countOrderedStringsEntries, value.count_masked count]
  | .more _ _ value _ others => by
    simp [Members.masked, Members.trees, Members.pieces, Members.strings,
      countOrderedStringsEntries, value.count_masked count, others.count_masked, bigIntegers,
      markerTexts_append]
    omega

end

mutual

/-- A marker nests no deeper than the number it stands for. -/
theorem Json.nesting_masked (count : Nat) : (value : Json) →
    ((value.masked nonce count).tree bits).nesting = (value.tree bits).nesting
  | .null | .bool _ | .string _ | .emptyArray _ | .emptyObject _ => rfl
  | .number numeral => by
    rw [masked]
    split <;> rfl
  | .array elements => congrArg (1 + ·) (elements.nesting_masked count)
  | .object members => congrArg (1 + ·) (members.nesting_masked count)

theorem Elements.nesting_masked (count : Nat) : (elements : Elements) →
    nestingAll ((elements.masked nonce count).trees bits) = nestingAll (elements.trees bits)
  | .one _ value _ => congrArg (max · 0) (value.nesting_masked count)
  | .more _ value _ others =>
    congrArg₂ max (value.nesting_masked count) (others.nesting_masked _)

theorem Members.nesting_masked (count : Nat) : (members : Members) →
    nestingEntries ((members.masked nonce count).trees bits) = nestingEntries (members.trees bits)
  | .one _ _ value _ => congrArg (max · 0) (value.nesting_masked count)
  | .more _ _ value _ others =>
    congrArg₂ max (value.nesting_masked count) (others.nesting_masked _)

end

end Counting

/-! ## Putting the integers back -/

variable {value : α} {numeral : Numeral}

/-- The digits of an integer outside the range of `i64` are a big integer. -/
theorem Numeral.validateBigInteger_text (h : numeral.OutOfRange)
    (hlen : numeral.text.length ≤ maxBigIntegerChars) :
    validateBigInteger numeral.text = .ok () := by
  have hnone : (parseI64? numeral.text).isSome = false := by
    have hout := (numeral.isOutOfRangeInteger_text h.1).mpr h.2
    rw [isOutOfRangeInteger] at hout
    rw [← Option.not_isNone, hout]
    rfl
  have hcanonical : ¬ (numeral.whole.text.length > 1 ∧ numeral.whole.text.head? = some '0') := by
    rintro ⟨hlong, hzero⟩
    rw [numeral.canonical hzero] at hlong
    exact absurd hlong (by decide)
  have hutf8 := utf8Len_of_digits numeral.whole.isDigit
  have htext := numeral.text_of_isInteger h.1
  rw [signText] at htext
  -- the digits behind the sign are those of the numeral, and one byte each
  have hdigits : (if numeral.text.head? = some '-' then numeral.text.tail else numeral.text)
      = numeral.whole.text ∧ utf8Len numeral.text = numeral.text.length := by
    rw [htext]
    rcases numeral.negative with _ | _
    · obtain ⟨_, _, hwhole, hc⟩ := numeral.whole.head?_isDigit
      rw [if_neg Bool.false_ne_true, nil_append, if_neg]
      · exact ⟨rfl, hutf8⟩
      rw [hwhole]
      rintro ⟨⟩
      cases hc
    · rw [if_pos rfl, cons_append, nil_append, length_cons, ← hutf8]
      exact ⟨rfl, Nat.add_comm _ _⟩
  rw [validateBigInteger]
  simp only [hdigits.1]
  rw [if_neg, hnone]
  · rfl
  rintro (hlong | hempty | hnot | hzero)
  · rw [hdigits.2] at hlong
    omega
  · exact numeral.whole.nonempty hempty
  · exact hnot numeral.whole.digits
  · exact hcanonical hzero

/-- The value, or the error for two names that are the same. -/
noncomputable def verdict {α : Type} (differ : Prop) (value : α) : Except ContextValueError α :=
  open Classical in if differ then .ok value else .error .duplicateObjectKey

section Verdict
variable {α β γ : Type} {P Q : Prop}

theorem verdict_of_true (h : P) : verdict P value = .ok value := if_pos h

theorem verdict_of_false (h : ¬ P) : verdict P value = .error .duplicateObjectKey := if_neg h

theorem verdict_pure (value : α) (f : α → β) :
    (verdict P value >>= fun a => pure (f a)) = verdict P (f value) := by
  by_cases h : P
  · rw [verdict_of_true h, verdict_of_true h]
    rfl
  · rw [verdict_of_false h, verdict_of_false h]
    rfl

theorem verdict_bind (value : α) (next : β) (f : α → β → γ) :
    (verdict P value >>= fun a => verdict Q next >>= fun b => pure (f a b))
      = verdict (P ∧ Q) (f value next) := by
  by_cases hp : P
  · rw [verdict_of_true hp, ok_bind, verdict_pure, and_iff_right hp]
  · have hpq : ¬ (P ∧ Q) := fun h => hp h.1
    rw [verdict_of_false hp, verdict_of_false hpq]
    rfl

end Verdict

section Names
variable (upper : Char → Char)

theorem Members.keys_contextEntries (bits : Double → UInt64) (comparer : JsonObjectComparer) :
    (members : Members) → (members.contextEntries bits comparer).map (·.1) = members.names
  | .one _ _ _ _ => rfl
  | .more key _ _ _ others =>
    congrArg (key.name.value :: ·) (others.keys_contextEntries bits comparer)

theorem Members.validateUniqueKeys_eq (bits : Double → UInt64) (comparer : JsonObjectComparer)
    (caseSensitive : Bool) (members : Members) :
    validateUniqueKeys upper caseSensitive (members.contextEntries bits comparer)
      = verdict (members.names.Pairwise fun previous name =>
          sameKey upper caseSensitive previous name = false) () := by
  have hunique : UniqueKeys upper caseSensitive (members.contextEntries bits comparer) ↔
      members.names.Pairwise fun previous name =>
        sameKey upper caseSensitive previous name = false := by
    rw [← members.keys_contextEntries bits comparer, UniqueKeys, Nodup, pairwise_map, pairwise_map]
    simp only [← Bool.not_eq_true, sameKey_iff]
  rw [← validateUniqueKeys_ok_iff] at hunique
  cases hcheck : validateUniqueKeys upper caseSensitive (members.contextEntries bits comparer) with
  | ok => exact (verdict_of_true (hunique.mp hcheck)).symm
  | error =>
    rw [validateKeysAfter_error hcheck, verdict_of_false]
    intro hdiffer
    rw [hunique.mpr hdiffer] at hcheck
    cases hcheck

end Names

/-- Every integer outside the range of `i64` is short enough. -/
def IntegersFit (pieces : List Piece) : Prop :=
  ∀ digits ∈ bigIntegers pieces, digits.length ≤ maxBigIntegerChars

theorem IntegersFit.of_append {a b : List Piece} (h : IntegersFit (a ++ b)) :
    IntegersFit a ∧ IntegersFit b := by
  rw [IntegersFit, bigIntegers_append] at h
  exact ⟨fun digits hmem => h digits (mem_append_left _ hmem),
    fun digits hmem => h digits (mem_append_right _ hmem)⟩

theorem IntegersFit.of_cons {piece : Piece} {pieces : List Piece}
    (h : IntegersFit (piece :: pieces)) : IntegersFit pieces :=
  (IntegersFit.of_append (a := [piece]) h).2

theorem IntegersFit.number (h : IntegersFit [.number numeral]) (hrange : numeral.OutOfRange) :
    numeral.text.length ≤ maxBigIntegerChars := by
  refine h numeral.text ?_
  rw [bigIntegers, if_pos hrange]
  exact mem_cons_self

section Validation
variable (upper : Char → Char) (bits : Double → UInt64)

mutual

/-- What a document means passes the checks of a context value. -/
theorem Json.validate_contextValue (comparer : JsonObjectComparer) (isRoot : Bool) :
    (value : Json) → IntegersFit value.pieces →
      value.NamesDiffer upper comparer isRoot →
      validate upper (value.contextValue bits comparer isRoot) = .ok ()
  | .null, _, _ | .bool _, _, _ | .string _, _, _ | .emptyArray _, _, _ => rfl
  | .emptyObject _, _, _ => rfl
  | .number numeral, hfit, _ => by
    rw [contextValue, Numeral.contextValue]
    split
    · rename_i hrange
      exact Numeral.validateBigInteger_text hrange (hfit.number hrange)
    · rfl
  | .array elements, hfit, hdiffer =>
    elements.validate_contextValues comparer.descendant hfit.of_cons.of_append.1 hdiffer
  | .object members, hfit, hdiffer => by
    rw [contextValue, validate, members.validateUniqueKeys_eq, verdict_of_true hdiffer.1, ok_bind]
    exact members.validate_contextEntries comparer.descendant hfit.of_cons.of_append.1 hdiffer.2

theorem Elements.validate_contextValues (comparer : JsonObjectComparer) :
    (elements : Elements) → IntegersFit elements.pieces →
      elements.NamesDiffer upper comparer →
      validateAll upper (elements.contextValues bits comparer) = .ok ()
  | .one _ value _, hfit, hdiffer => by
    rw [Elements.contextValues, validateAll,
      value.validate_contextValue comparer false hfit.of_append.2.of_append.1 hdiffer]
    rfl
  | .more _ value _ others, hfit, hdiffer => by
    have hothers := hfit.of_append.2.of_append.2.of_append.2.of_cons
    rw [Elements.contextValues, validateAll,
      value.validate_contextValue comparer false hfit.of_append.2.of_append.1 hdiffer.1, ok_bind,
      others.validate_contextValues comparer hothers hdiffer.2]

theorem Members.validate_contextEntries (comparer : JsonObjectComparer) :
    (members : Members) → IntegersFit members.pieces →
      members.NamesDiffer upper comparer →
      validateEntries upper (members.contextEntries bits comparer) = .ok ()
  | .one _ _ value _, hfit, hdiffer => by
    rw [Members.contextEntries, validateEntries, value.validate_contextValue comparer false
      hfit.of_append.2.of_append.2.of_append.1 hdiffer]
    rfl
  | .more _ _ value _ others, hfit, hdiffer => by
    have hvalue := hfit.of_append.2.of_append.2
    rw [Members.contextEntries, validateEntries,
      value.validate_contextValue comparer false hvalue.of_append.1 hdiffer.1, ok_bind,
      others.validate_contextEntries comparer hvalue.of_append.2.of_append.2.of_cons hdiffer.2]

end

end Validation

section Restoring
variable {numbers : List (Str × MaskedJsonNumber)} {nonce : UInt64} {count : Nat}
  {a b : List Piece} {strings others : List Str}

/-- The markers of a part of the text are known, and none of its strings is a marker. -/
structure Restorable (numbers : List (Str × MaskedJsonNumber)) (nonce : UInt64)
    (count : Nat) (pieces : List Piece) (strings : List Str) : Prop where
  known : ∀ entry ∈ markers nonce count (bigIntegers pieces),
    numbers.find? (fun number => number.1 == entry.1) = some entry
  free : ∀ string ∈ strings, numbers.find? (fun number => number.1 == string) = none
  fit : IntegersFit pieces

theorem markers_append (nonce : UInt64) (count : Nat) (a b : List Str) :
    markers nonce count (a ++ b) = markers nonce count a ++ markers nonce (count + a.length) b := by
  induction a generalizing count with
  | nil => rfl
  | cons _ _ ih =>
    rw [cons_append, markers, ih, markers, cons_append, length_cons, Nat.add_assoc, Nat.add_comm 1]

section

variable (h : Restorable numbers nonce count (a ++ b) strings)
include h

theorem Restorable.first : Restorable numbers nonce count a strings := by
  have hknown := h.known
  rw [bigIntegers_append, markers_append] at hknown
  exact ⟨fun entry hmem => hknown entry (mem_append_left _ hmem), h.free, h.fit.of_append.1⟩

theorem Restorable.rest : Restorable numbers nonce (count + (bigIntegers a).length) b strings := by
  have hknown := h.known
  rw [bigIntegers_append, markers_append] at hknown
  exact ⟨fun entry hmem => hknown entry (mem_append_right _ hmem), h.free, h.fit.of_append.2⟩

/-- Pieces in front that hold no integer to restore. -/
theorem Restorable.behind (ha : bigIntegers a = []) : Restorable numbers nonce count b strings := by
  have hrest := h.rest
  rw [ha] at hrest
  exact hrest

end

theorem Restorable.of_strings (h : Restorable numbers nonce count a strings)
    (hsub : ∀ s ∈ others, s ∈ strings) : Restorable numbers nonce count a others :=
  { h with free := fun s hs => h.free s (hsub s hs) }

variable (upper : Char → Char) (bits : Double → UInt64)

theorem Restorable.intoBigInteger (comparer : JsonObjectComparer) (isRoot : Bool)
    (h : Restorable numbers nonce count [.number numeral] strings) (hrange : numeral.OutOfRange) :
    intoContextValue upper numbers comparer isRoot (.string (marker nonce count))
      = .ok (.bigInteger numeral.text) := by
  have hmem : (marker nonce count, .bigInteger numeral.text)
      ∈ markers nonce count (bigIntegers [.number numeral]) := by
    rw [bigIntegers, if_pos hrange]
    exact mem_cons_self
  have hvalid := Numeral.validateBigInteger_text hrange (h.fit.number hrange)
  rw [intoContextValue, h.known _ hmem]
  simp only [bigInteger, hvalid]
  rfl

mutual

/-- The masked tree is restored to what the document means. -/
theorem Json.into_masked (comparer : JsonObjectComparer) (isRoot : Bool) (count : Nat) :
    (value : Json) → Restorable numbers nonce count value.pieces value.strings →
      intoContextValue upper numbers comparer isRoot ((value.masked nonce count).tree bits)
        = verdict (value.NamesDiffer upper comparer isRoot)
          (value.contextValue bits comparer isRoot)
  | .null, _ | .bool _, _ | .emptyArray _, _ | .emptyObject _, _ =>
    (verdict_of_true trivial).symm
  | .string token, h => by
    have hfree := h.free token.value mem_cons_self
    rw [masked, tree, intoContextValue, hfree]
    exact (verdict_of_true trivial).symm
  | .number numeral, h => by
    rw [contextValue, Numeral.contextValue, masked, Json.NamesDiffer, verdict_of_true trivial]
    split
    · rename_i hrange
      rw [tree, markerToken_value]
      exact h.intoBigInteger upper comparer isRoot hrange
    · rfl
  | .array elements, h => by
    have hinner := (h.behind (a := [.plain '[']) rfl).first
    rw [masked, tree, intoContextValue, elements.into_masked comparer.descendant count hinner]
    exact verdict_pure _ _
  | .object members, h => by
    have hinner := (h.behind (a := [.plain '\x7b']) rfl).first
    rw [masked, tree, intoContextValue, members.into_masked comparer.descendant count hinner]
    by_cases hdiffer : members.NamesDiffer upper comparer.descendant
    · rw [verdict_of_true hdiffer, ok_bind, tryObject, members.validateUniqueKeys_eq,
        members.validate_contextEntries upper bits comparer.descendant hinner.fit hdiffer]
      rw [Json.NamesDiffer, and_iff_left hdiffer]
      exact verdict_pure _ _
    · rw [verdict_of_false hdiffer, verdict_of_false]
      · rfl
      · exact fun h => hdiffer h.2

theorem Elements.into_masked (comparer : JsonObjectComparer) (count : Nat) :
    (elements : Elements) → Restorable numbers nonce count elements.pieces elements.strings →
      intoContextValues upper numbers comparer ((elements.masked nonce count).trees bits)
        = verdict (elements.NamesDiffer upper comparer) (elements.contextValues bits comparer)
  | .one before value after, h => by
    have hvalue := (h.behind (bigIntegers_plains _)).first
    rw [Elements.masked, Elements.trees, intoContextValues, intoContextValues,
      value.into_masked comparer false count hvalue]
    exact verdict_pure _ _
  | .more before value after others, h => by
    have hbehind := h.behind (bigIntegers_plains _)
    have hvalue := hbehind.first.of_strings fun s hs => mem_append_left _ hs
    have hothers := ((hbehind.rest.behind (bigIntegers_plains _)).behind
      (a := [.plain ',']) rfl).of_strings fun s hs => mem_append_right _ hs
    rw [Elements.masked, Elements.trees, intoContextValues,
      value.into_masked comparer false count hvalue, others.into_masked comparer _ hothers]
    exact verdict_bind _ _ _

theorem Members.into_masked (comparer : JsonObjectComparer) (count : Nat) :
    (members : Members) → Restorable numbers nonce count members.pieces members.strings →
      intoContextEntries upper numbers comparer ((members.masked nonce count).trees bits)
        = verdict (members.NamesDiffer upper comparer) (members.contextEntries bits comparer)
  | .one key before value after, h => by
    have hvalue := ((h.behind (bigIntegers_key key)).behind (bigIntegers_plains _)).first
    rw [Members.masked, Members.trees, intoContextEntries, intoContextEntries,
      value.into_masked comparer false count hvalue]
    exact verdict_pure _ _
  | .more key before value after others, h => by
    have hbehind := (h.behind (bigIntegers_key key)).behind (bigIntegers_plains _)
    have hvalue := hbehind.first.of_strings fun s hs => mem_append_left _ hs
    have hothers := ((hbehind.rest.behind (bigIntegers_plains _)).behind
      (a := [.plain ',']) rfl).of_strings fun s hs => mem_append_right _ hs
    rw [Members.masked, Members.trees, intoContextEntries,
      value.into_masked comparer false count hvalue, others.into_masked comparer _ hothers]
    exact verdict_bind _ _ _

end

end Restoring

end Velnor.Context
