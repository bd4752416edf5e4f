/-
  The number scanner on the numbers of the grammar.  What it finds depends on
  nothing behind the number, it takes a numeral whole, and the two readings of
  the lexeme, as an `i64` and as a double, are the values of the numeral.
-/
import Velnor.Context.JsonText
import Velnor.Text.Decimal

namespace Velnor.Context

open Text List Option

/-! ## What ends a number -/

def isNumberChar (c : Char) : Bool := c.isDigit || c ∈ ".eE+-".toList

/-- No number goes on here. -/
def StopsNumber (s : Str) : Prop := ∀ c ∈ s.head?, isNumberChar c = false

section Stops
variable {rest : Str}

theorem StopsNumber.head_ne {c d : Char} (h : StopsNumber (c :: rest))
    (hd : isNumberChar d = true) : c ≠ d := by
  rintro rfl
  rw [h c rfl] at hd
  cases hd

theorem StopsNumber.not_digit (h : StopsNumber rest) : ∀ c ∈ rest.head?, c.isDigit = false := by
  intro c hc
  have hno := h c hc
  rw [isNumberChar, Bool.or_eq_false_iff] at hno
  exact hno.1

theorem scanDigits_append (h : StopsNumber rest) (n : Nat) (s : Str) :
    scanDigits n (s ++ rest) = (scanDigits n s).map fun found => (found.1, found.2 ++ rest) := by
  rw [scanDigits, takeWhile_append_stops _ h.not_digit, dropWhile_append_stops _ h.not_digit,
    scanDigits]
  split <;> rfl

theorem signLength_append (h : StopsNumber rest) (s : Str) :
    signLength (s ++ rest) = signLength s := by
  cases s with
  | nil =>
    cases rest with
    | nil => rfl
    | cons c =>
      have hsign : ¬ (c = '+' ∨ c = '-') :=
        not_or.mpr ⟨h.head_ne (by decide), h.head_ne (by decide)⟩
      exact if_neg hsign
  | cons => rfl

theorem signLength_le (s : Str) : signLength s ≤ s.length := by
  cases s with
  | nil => exact Nat.le_refl _
  | cons =>
    rw [signLength]
    split
    · exact Nat.succ_le_succ (Nat.zero_le _)
    · exact Nat.zero_le _

theorem scanExponent_append (h : StopsNumber rest) (n : Nat) (isInteger : Bool) (s : Str) :
    scanExponent n isInteger (s ++ rest) = scanExponent n isInteger s := by
  cases s with
  | nil =>
    cases rest with
    | nil => rfl
    | cons c =>
      have hletter : ¬ (c = 'e' ∨ c = 'E') :=
        not_or.mpr ⟨h.head_ne (by decide), h.head_ne (by decide)⟩
      exact if_neg hletter
  | cons _ s =>
    rw [cons_append, scanExponent, scanExponent, signLength_append h,
      drop_append_of_le_length (signLength_le s), scanDigits_append h, Option.map_map]
    rfl

theorem scanFraction_append (h : StopsNumber rest) (n : Nat) (s : Str) :
    scanFraction n (s ++ rest) = scanFraction n s := by
  cases s with
  | nil =>
    cases rest with
    | nil => rfl
    | cons c =>
      have hpoint : c ≠ '.' := h.head_ne (by decide)
      exact (if_neg hpoint).trans (scanExponent_append h n true [])
  | cons _ s =>
    rw [cons_append, scanFraction, scanFraction, scanDigits_append h,
      ← cons_append, scanExponent_append h]
    cases scanDigits (n + 1) s with
    | none => rfl
    | some =>
      rw [map_some, bind_some, bind_some, scanExponent_append h]

theorem scanWhole_append (h : StopsNumber rest) (n : Nat) (s : Str) :
    scanWhole n (s ++ rest) = scanWhole n s := by
  cases s with
  | nil =>
    cases rest with
    | nil => rfl
    | cons c =>
      have hdigit : ¬ c.isDigit = true := by
        rw [h.not_digit c rfl]
        exact Bool.false_ne_true
      have hzero : c ≠ '0' := h.head_ne (by decide)
      exact (if_neg hzero).trans (if_neg hdigit)
  | cons =>
    rw [cons_append, scanWhole, scanWhole, takeWhile_append_stops _ h.not_digit,
      dropWhile_append_stops _ h.not_digit, scanFraction_append h, scanFraction_append h]

/-- The scanner does not look behind the number. -/
theorem scanJsonNumber_append (h : StopsNumber rest) (s : Str) :
    scanJsonNumber (s ++ rest) = scanJsonNumber s := by
  cases s with
  | nil =>
    cases rest with
    | nil => rfl
    | cons c =>
      have hminus : c ≠ '-' := h.head_ne (by decide)
      exact (if_neg hminus).trans (scanWhole_append h 0 [])
  | cons =>
    rw [cons_append, scanJsonNumber, scanJsonNumber, scanWhole_append h,
      ← cons_append, scanWhole_append h]

end Stops

/-! ## Lengths -/

section Lengths
variable {n m : Nat} {i j : Bool} {s b : Str}

theorem scanDigits_length (h : scanDigits n s = some (m, b)) :
    n ≤ m ∧ m + b.length = n + s.length := by
  have hsplit := congrArg length (takeWhile_append_dropWhile (p := Char.isDigit) (l := s))
  rw [length_append] at hsplit
  rw [scanDigits] at h
  split at h
  · cases h
  · cases h
    omega

theorem scanExponent_le (h : scanExponent n i s = some (m, j)) : n ≤ m ∧ m ≤ n + s.length := by
  cases s with
  | nil =>
    cases h
    exact ⟨Nat.le_refl _, Nat.le_refl _⟩
  | cons _ s =>
    rw [scanExponent] at h
    split at h
    · obtain ⟨⟨_, _⟩, hfound, hsome⟩ := map_eq_some_iff.mp h
      cases hsome
      have hlen := scanDigits_length hfound
      have hsign := signLength_le s
      rw [length_drop] at hlen
      rw [length_cons]
      omega
    · cases h
      exact ⟨Nat.le_refl _, Nat.le_add_right _ _⟩

theorem scanFraction_le (h : scanFraction n s = some (m, j)) : n ≤ m ∧ m ≤ n + s.length := by
  cases s with
  | nil => exact scanExponent_le h
  | cons =>
    rw [scanFraction] at h
    split at h
    · obtain ⟨⟨found, behind⟩, hfound, hbehind⟩ := bind_eq_some_iff.mp h
      have hlen := scanDigits_length hfound
      have hle : found ≤ m ∧ m ≤ found + behind.length := scanExponent_le hbehind
      rw [length_cons]
      omega
    · exact scanExponent_le h

theorem scanWhole_le (h : scanWhole n s = some (m, j)) : n < m ∧ m ≤ n + s.length := by
  cases s with
  | nil => cases h
  | cons _ s =>
    have hsplit := congrArg length (takeWhile_append_dropWhile (p := Char.isDigit) (l := s))
    rw [length_append] at hsplit
    rw [scanWhole] at h
    rw [length_cons]
    split at h
    · have hle := scanFraction_le h
      omega
    split at h
    · have hle := scanFraction_le h
      omega
    · cases h

theorem scanJsonNumber_le (h : scanJsonNumber s = some (m, j)) : 0 < m ∧ m ≤ s.length := by
  cases s with
  | nil => cases h
  | cons =>
    rw [scanJsonNumber] at h
    rw [length_cons]
    split at h
    · have hle := scanWhole_le h
      omega
    · have hle := scanWhole_le h
      rw [length_cons] at hle
      omega

end Lengths

/-! ## A numeral is scanned whole -/

theorem Digits.isDigit (digits : Digits) : ∀ c ∈ digits.text, c.isDigit = true :=
  all_eq_true.mp digits.digits

theorem Digits.head?_isDigit (digits : Digits) :
    ∃ c s, digits.text = c :: s ∧ c.isDigit = true := by
  rcases h : digits.text with _ | ⟨c, s⟩
  · exact absurd h digits.nonempty
  · exact ⟨c, s, rfl, digits.isDigit c (h ▸ mem_cons_self)⟩

namespace Numeral

variable (numeral : Numeral)

theorem head?_exponentText : ∀ c ∈ numeral.exponentText.head?, c = 'e' ∨ c = 'E' := by
  rw [exponentText]
  cases numeral.exponent with
  | none => nofun
  | some exponent =>
    rintro _ ⟨⟩
    exact exponent.letter_eq

/-- No digit follows the digits of the whole part or of the fraction. -/
theorem exponentText_not_digit : ∀ c ∈ numeral.exponentText.head?, c.isDigit = false := by
  intro c hc
  rcases numeral.head?_exponentText c hc with rfl | rfl <;> rfl

theorem exponentText_ne_point : numeral.exponentText.head? ≠ some '.' := by
  intro hhead
  rcases numeral.head?_exponentText '.' hhead with h | h <;> cases h

theorem behindWhole_not_digit :
    ∀ c ∈ (numeral.fractionText ++ numeral.exponentText).head?, c.isDigit = false := by
  rw [fractionText]
  cases numeral.fraction with
  | none => exact numeral.exponentText_not_digit
  | some =>
    rintro _ ⟨⟩
    rfl

variable (exponent : Exponent) (n : Nat) (digits : Digits)

theorem scanDigits_text {behind : Str} (hstop : ∀ c ∈ behind.head?, c.isDigit = false) :
    scanDigits n (digits.text ++ behind) = some (n + digits.text.length, behind) := by
  rw [scanDigits, takeWhile_append_stop digits.isDigit hstop, if_neg digits.nonempty,
    dropWhile_append_stops _ hstop, dropWhile_eq_nil_iff.mpr digits.isDigit, nil_append]

theorem signLength_text :
    signLength (exponent.sign ++ exponent.digits.text) = exponent.sign.length := by
  obtain ⟨_, _, hdigits, hc⟩ := exponent.digits.head?_isDigit
  rcases exponent.sign_eq with hsign | hsign | hsign
  · rw [hsign, hdigits, nil_append, signLength, if_neg]
    · rfl
    · rintro (rfl | rfl) <;> cases hc
  · rw [hsign]
    rfl
  · rw [hsign]
    rfl

theorem scanExponent_text (isInteger : Bool) :
    scanExponent n isInteger numeral.exponentText
      = some (n + numeral.exponentText.length, isInteger && numeral.exponent.isNone) := by
  rw [exponentText]
  rcases numeral.exponent with _ | exponent
  · rw [isNone_none, Bool.and_true]
    rfl
  have hnil : ∀ c ∈ ([] : Str).head?, c.isDigit = false := nofun
  have hdigits := scanDigits_text (n + 1 + exponent.sign.length) exponent.digits hnil
  rw [append_nil] at hdigits
  rw [map_some, getD_some, Exponent.text, scanExponent, if_pos exponent.letter_eq,
    signLength_text, drop_left, hdigits, map_some, isNone_some,
    Bool.and_false, length_cons, length_append]
  congr 2
  omega

theorem scanFraction_text :
    scanFraction n (numeral.fractionText ++ numeral.exponentText)
      = some (n + (numeral.fractionText ++ numeral.exponentText).length, numeral.isInteger) := by
  rw [isInteger, fractionText]
  rcases numeral.fraction with _ | _
  · rw [map_none, getD_none, nil_append, ← scanExponent_text]
    rcases hexponent : numeral.exponentText with _ | ⟨_, _⟩
    · rfl
    rw [scanFraction, if_neg]
    · rfl
    rintro rfl
    exact numeral.exponentText_ne_point (by rw [hexponent]; rfl)
  · rw [map_some, getD_some, cons_append, scanFraction, if_pos rfl,
      scanDigits_text _ _ numeral.exponentText_not_digit, bind_some, scanExponent_text,
      length_cons, length_append, Bool.false_and, isNone_some, Bool.false_and]
    congr 2
    omega

theorem scanWhole_text :
    scanWhole n (numeral.whole.text ++ (numeral.fractionText ++ numeral.exponentText))
      = some (n + (numeral.whole.text ++ (numeral.fractionText ++ numeral.exponentText)).length,
          numeral.isInteger) := by
  obtain ⟨c, s, hdigits, hc⟩ := numeral.whole.head?_isDigit
  by_cases hzero : c = '0'
  · have halone := numeral.canonical (by rw [hdigits, hzero]; rfl)
    rw [halone, cons_append, nil_append, scanWhole, if_pos rfl, scanFraction_text, length_cons]
    congr 2
    omega
  · have hs : ∀ d ∈ s, d.isDigit = true := fun d hd =>
      numeral.whole.isDigit d (hdigits ▸ mem_cons_of_mem c hd)
    rw [hdigits, cons_append, scanWhole, if_neg hzero, if_pos hc,
      takeWhile_append_stop hs numeral.behindWhole_not_digit,
      dropWhile_append_stops _ numeral.behindWhole_not_digit,
      dropWhile_eq_nil_iff.mpr hs, nil_append, scanFraction_text]
    simp only [length_cons, length_append]
    congr 2
    omega

theorem scanJsonNumber_text :
    scanJsonNumber numeral.text = some (numeral.text.length, numeral.isInteger) := by
  have hwhole := numeral.scanWhole_text
  rw [text, signText]
  rcases numeral.negative with _ | _
  · obtain ⟨_, _, hdigits, hc⟩ := numeral.whole.head?_isDigit
    rw [hdigits] at hwhole ⊢
    rw [if_neg Bool.false_ne_true, nil_append, cons_append, scanJsonNumber, if_neg,
      ← cons_append, hwhole, Nat.zero_add]
    rintro rfl
    cases hc
  · rw [if_pos rfl, cons_append, nil_append, scanJsonNumber, if_pos rfl, hwhole,
      length_cons, Nat.add_comm]

/-! ## The values of a numeral -/

theorem parseDigits?_text : parseDigits? digits.text = some (digitsValue digits.text) :=
  parseDigits?_eq_some_iff.mpr ⟨digits.nonempty, digits.isDigit, rfl⟩

theorem text_of_isInteger (h : numeral.isInteger = true) :
    numeral.text = numeral.signText ++ numeral.whole.text := by
  rw [isInteger, Bool.and_eq_true, isNone_iff_eq_none, isNone_iff_eq_none] at h
  rw [text, fractionText, exponentText, h.1, h.2, map_none, map_none,
    getD_none, append_nil, append_nil]

theorem parseInt?_text (h : numeral.isInteger = true) :
    parseInt? numeral.text = some numeral.integer := by
  rw [numeral.text_of_isInteger h, signText, integer, magnitude]
  rcases numeral.negative with _ | _
  · rw [if_neg Bool.false_ne_true, if_neg Bool.false_ne_true, nil_append,
      parseInt?_of_digits numeral.whole.isDigit, parseDigits?_text]
    rfl
  · rw [if_pos rfl, if_pos rfl, cons_append, nil_append, parseInt?, parseDigits?_text]
    rfl

theorem isOutOfRangeInteger_text (h : numeral.isInteger = true) :
    isOutOfRangeInteger numeral.text = true ↔ ¬ InI64 numeral.integer := by
  rw [isOutOfRangeInteger, parseI64?, numeral.parseInt?_text h, filter_some]
  split_ifs with hin
  all_goals
    rw [decide_eq_true_iff] at hin
    simp [hin]

theorem splitSign_digits (behind : Str) :
    splitSign (digits.text ++ behind) = (false, digits.text ++ behind) := by
  obtain ⟨_, _, hdigits, hc⟩ := digits.head?_isDigit
  rw [hdigits, cons_append]
  unfold splitSign
  split
  case h_1 heq | h_2 heq =>
    cases heq
    cases hc
  next => rfl

theorem splitSign_text : splitSign numeral.text
    = (numeral.negative, numeral.whole.text ++ (numeral.fractionText ++ numeral.exponentText)) := by
  rw [text, signText]
  rcases numeral.negative with _ | _
  · exact splitSign_digits numeral.whole _
  · rfl

theorem splitSign_exponent :
    splitSign (exponent.sign ++ exponent.digits.text)
      = (decide (exponent.sign = ['-']), exponent.digits.text) := by
  rcases exponent.sign_eq with hsign | hsign | hsign
  · have hdigits := splitSign_digits exponent.digits []
    rw [append_nil] at hdigits
    rw [hsign]
    exact hdigits
  · rw [hsign]
    rfl
  · rw [hsign]
    rfl

theorem parseExponent?_text : parseExponent? numeral.exponentText
    = some ((numeral.exponent.map Exponent.value).getD 0) := by
  rw [exponentText]
  rcases numeral.exponent with _ | exponent
  · rfl
  simp only [map_some, getD_some, Exponent.text, parseExponent?,
    if_pos exponent.letter_eq, splitSign_exponent, parseDigits?_text, Exponent.value,
    decide_eq_true_iff]
  rfl

/-- The lexeme is read as the double of the numeral. -/
theorem parseF64?_text : parseF64? numeral.text = some numeral.double := by
  have hrun := takeWhile_append_stop numeral.whole.isDigit numeral.behindWhole_not_digit
  have hrest := dropWhile_append_stops numeral.whole.text numeral.behindWhole_not_digit
  rw [dropWhile_eq_nil_iff.mpr numeral.whole.isDigit, nil_append] at hrest
  simp only [parseF64?, splitSign_text, hrun, hrest, numeral.whole.nonempty, false_and, if_false]
  rw [double, fractionText, fractionDigits]
  rcases numeral.fraction with _ | digits
  · simp only [map_none, getD_none, nil_append, if_neg numeral.exponentText_ne_point,
      parseExponent?_text, map_some]
  · have hfraction := takeWhile_append_stop digits.isDigit numeral.exponentText_not_digit
    have hbehind := dropWhile_append_stops digits.text numeral.exponentText_not_digit
    rw [dropWhile_eq_nil_iff.mpr digits.isDigit, nil_append] at hbehind
    simp only [map_some, getD_some, cons_append, head?_cons, if_true,
      tail_cons, hfraction, hbehind, parseExponent?_text]

theorem double_eq_infinite {negative : Bool} (h : numeral.double = .infinite negative) :
    numeral.Overflows := by
  rw [Overflows]
  rw [double, Double.ofDecimal] at h ⊢
  split at h
  · cases h
    rename_i hover
    rw [if_pos hover]
  · cases h

theorem overflowingFloat_text : overflowingFloat numeral.text = none ↔ ¬ numeral.Overflows := by
  rw [overflowingFloat, parseF64?_text]
  constructor
  · intro hnone hover
    rw [hover] at hnone
    cases hneg : numeral.negative <;> rw [hneg] at hnone <;> cases hnone
  · intro hover
    split
    case h_1 heq | h_2 heq => exact absurd (numeral.double_eq_infinite (some.inj heq)) hover
    next => rfl

/-! ## What is masked -/

/-- Apart from these integers, a number is masked when it is beyond the doubles. -/
theorem maskedNumber_eq_none_iff (h : ¬ numeral.OutOfRange) :
    maskedNumber numeral.text numeral.isInteger = none
      ↔ (numeral.isInteger = false → ¬ numeral.Overflows) := by
  rcases hint : numeral.isInteger with _ | _
  · rw [maskedNumber, if_neg (fun hand => Bool.false_ne_true hand.1), if_pos rfl,
      map_eq_none_iff, overflowingFloat_text]
    simp
  · have hin : ¬ isOutOfRangeInteger numeral.text = true := by
      rw [numeral.isOutOfRangeInteger_text hint]
      intro hnot
      exact h ⟨hint, hnot⟩
    rw [maskedNumber, if_neg (fun hand => hin hand.2), if_neg (by decide)]
    simp

end Numeral

end Velnor.Context
