/-
  What masking does to a document.  The scanner goes on one character behind
  the start of a number which it leaves in place, so it meets every later part
  of that number as if a number began there.  It masks exactly the integers
  outside the range of `i64` when no such part is a number to mask.

  The text is handled piece by piece: `Separated` says what stands behind a
  number, and each kind of piece has its step.
-/
import Velnor.Context.JsonNumerals

namespace Velnor.Context

open Text Piece List Piece Option

/-! ## Exact masking -/

variable {s : Str} {c : Char} {pieces : List Piece}

theorem stringBody_of_plain (h : ∀ c ∈ s, 0x20 ≤ c.toNat ∧ c ≠ '"' ∧ c ≠ '\\') : StringBody s := by
  induction s with
  | nil => exact .nil
  | cons c _ ih =>
    obtain ⟨hcontrol, hquote, hbackslash⟩ := h c mem_cons_self
    exact .plain hcontrol hquote hbackslash (ih fun d hd => h d (mem_cons_of_mem c hd))

variable (nonce : UInt64) (index : Nat)

theorem markerName_plain : ∀ c ∈ markerName nonce index, 0x20 ≤ c.toNat ∧ c ≠ '"' ∧ c ≠ '\\' := by
  have hword : ∀ s : Str, s.all (fun c => 0x20 ≤ c.toNat ∧ c ≠ '"' ∧ c ≠ '\\') = true →
      ∀ c ∈ s, 0x20 ≤ c.toNat ∧ c ≠ '"' ∧ c ≠ '\\' :=
    fun _ h c hc => of_decide_eq_true (all_eq_true.mp h c hc)
  have hdigits : ∀ n, ∀ c ∈ Nat.toDigits 10 n, 0x20 ≤ c.toNat ∧ c ≠ '"' ∧ c ≠ '\\' := by
    intro _ _ hc
    have hdigit := isDigit_iff.mp (isDigit_of_mem_toDigits hc)
    refine ⟨by omega, ?_, ?_⟩ <;> rintro rfl <;> exact absurd hdigit (by decide)
  unfold markerName
  simp only [forall_mem_append]
  exact ⟨⟨⟨⟨hword _ (by decide +kernel), hdigits _⟩, hword _ (by decide +kernel)⟩, hdigits _⟩,
    hword _ (by decide +kernel)⟩

/-- The string token of a marker. -/
def markerToken : StringToken where
  body := '\\' :: 'u' :: ("0000" ++ markerName nonce index)
  valid := .unicode rfl rfl (stringBody_of_plain (markerName_plain nonce index))

/-- Every integer outside the range of `i64` replaced by a marker, and nothing else. -/
def maskPieces (nonce : UInt64) : Nat → List Piece → List Piece
  | _, [] => []
  | count, .number numeral :: pieces =>
    if numeral.OutOfRange then
      .string (markerToken nonce count) :: maskPieces nonce (count + 1) pieces
    else .number numeral :: maskPieces nonce count pieces
  | count, .string token :: pieces => .string token :: maskPieces nonce count pieces
  | count, .plain c :: pieces => .plain c :: maskPieces nonce count pieces

/-- The digits of these integers, in the order of the text. -/
def bigIntegers : List Piece → List Str
  | [] => []
  | .number numeral :: pieces =>
    if numeral.OutOfRange then numeral.text :: bigIntegers pieces else bigIntegers pieces
  | .string _ :: pieces => bigIntegers pieces
  | .plain _ :: pieces => bigIntegers pieces

/-- The markers with the integers they stand for. -/
def markers (nonce : UInt64) : Nat → List Str → List (Str × MaskedJsonNumber)
  | _, [] => []
  | count, digits :: others =>
    (marker nonce count, .bigInteger digits) :: markers nonce (count + 1) others

def Document.exactMask (document : Document) (nonce : UInt64) :
    Str × List (Str × MaskedJsonNumber) :=
  (textOf (maskPieces nonce 0 document.pieces), markers nonce 0 (bigIntegers document.pieces))

/-- Masked whole, or no part of it which begins at a digit or a minus sign and
    goes on to its end is a number to mask. -/
def Numeral.Undisturbed (numeral : Numeral) : Prop :=
  numeral.OutOfRange ∨ ∀ part ∈ numeral.text.tails, maskAt part = none

instance (numeral : Numeral) : Decidable numeral.Undisturbed := inferInstanceAs (Decidable (_ ∨ _))

/-! ## Steps of the scanner -/

section Steps
variable {nonce} {count : Nat}

theorem maskFrom_skip (k : Nat) (s : Str) :
    maskFrom nonce count k s = maskFrom nonce count 0 (s.drop k) := by
  induction k generalizing s with
  | zero => rfl
  | succ _ ih =>
    cases s with
    | nil => rfl
    | cons =>
      rw [maskFrom, ih]
      rfl

theorem maskFrom_copy {s : Str} (hquote : c ≠ '"') (hnone : maskAt (c :: s) = none) :
    maskFrom nonce count 0 (c :: s)
      = (c :: (maskFrom nonce count 0 s).1, (maskFrom nonce count 0 s).2) := by
  rw [maskFrom, if_neg hquote, hnone]

theorem maskFrom_mark {s : Str} {n : Nat} {number : MaskedJsonNumber} (hquote : c ≠ '"')
    (hsome : maskAt (c :: s) = some (n + 1, number))
    (hcolon : nextNonWhitespace (s.drop n) ≠ some ':') :
    maskFrom nonce count 0 (c :: s)
      = (encodedMarker nonce count ++ (maskFrom nonce (count + 1) 0 (s.drop n)).1,
          (marker nonce count, number) :: (maskFrom nonce (count + 1) 0 (s.drop n)).2) := by
  rw [maskFrom, if_neg hquote, hsome]
  simp only [drop_succ_cons, if_neg hcolon, Nat.add_sub_cancel, maskFrom_skip n]

theorem stringLength_plain (hquote : c ≠ '"') (hbackslash : c ≠ '\\') (s : Str) :
    stringLength (c :: s) = stringLength s + 1 := by
  rw [stringLength]
  · exact fun heq _ => absurd heq hbackslash
  · exact fun _ _ heq _ => absurd heq hbackslash
  · exact fun heq => absurd heq hquote

theorem stringLength_hex {hex : Str} (h : hex.all isHexDigit = true) (s : Str) :
    stringLength (hex ++ s) = hex.length + stringLength s := by
  induction hex with
  | nil => rw [nil_append, length_nil, Nat.zero_add]
  | cons c _ ih =>
    rw [all_cons, Bool.and_eq_true] at h
    have hplain : c ≠ '"' ∧ c ≠ '\\' := by
      constructor <;> rintro rfl <;> exact absurd h.1 (by decide)
    rw [cons_append, stringLength_plain hplain.1 hplain.2, ih h.2, length_cons]
    omega

/-- A string ends at the first quote that no backslash escapes. -/
theorem stringLength_body {body : Str} (h : StringBody body) (rest : Str) :
    stringLength (body ++ '"' :: rest) = body.length + 1 := by
  induction h with
  | nil => rfl
  | plain _ hquote hbackslash _ ih =>
    rw [cons_append, stringLength_plain hquote hbackslash, ih, length_cons]
  | escape _ _ ih =>
    rw [cons_append, cons_append, stringLength, ih, length_cons, length_cons]
  | unicode _ hdigits _ ih =>
    rw [cons_append, cons_append, append_assoc, stringLength, stringLength_hex hdigits, length_cons,
      length_cons, length_append]
    omega

theorem maskFrom_string (token : StringToken) (rest : Str) :
    maskFrom nonce count 0 (token.text ++ rest)
      = (token.text ++ (maskFrom nonce count 0 rest).1, (maskFrom nonce count 0 rest).2) := by
  have hlen : stringLength (token.body ++ ['"'] ++ rest) = (token.body ++ ['"']).length := by
    rw [append_assoc, cons_append, stringLength_body token.valid, length_append]
    rfl
  rw [StringToken.text, cons_append, maskFrom, if_pos rfl]
  simp only [hlen, maskFrom_skip (token.body ++ ['"']).length, drop_left, take_left]

end Steps

/-! ## What stands behind a number -/

/-- A value ends here: a comma, a closing bracket or the end, after whitespace. -/
def ValueEnd (s : Str) : Prop := nextNonWhitespace s ∈ [none, some ',', some ']', some '\x7d']

theorem ValueEnd.blank (h : ValueEnd s) (blank : Whitespace) : ValueEnd (blank.text ++ s) := by
  rw [ValueEnd, nextNonWhitespace, dropWhile_append_of_pos (all_eq_true.mp blank.blank)]
  exact h

theorem valueEnd_cons (h : c ∈ [',', ']', '\x7d']) (s : Str) : ValueEnd (c :: s) := by
  rw [mem_cons, mem_cons, mem_singleton] at h
  rcases h with rfl | rfl | rfl <;> exact mem_of_elem_eq_true rfl

theorem valueEnd_plain (h : c ∈ [',', ']', '\x7d']) (pieces : List Piece) :
    ValueEnd (textOf (.plain c :: pieces)) := valueEnd_cons h _

theorem ValueEnd.stopsNumber (h : ValueEnd s) : StopsNumber s := by
  intro c hc
  cases s with
  | nil => cases hc
  | cons =>
    cases hc
    rcases hblank : isJsonWhitespace c with _ | _
    · -- the first character is the one that ends the value
      rw [ValueEnd, nextNonWhitespace, dropWhile_cons_of_neg (by simp [hblank])] at h
      simp only [head?_cons, mem_cons, not_mem_nil, or_false, Option.some_inj] at h
      rcases h with h | rfl | rfl | rfl
      · cases h
      all_goals rfl
    · simp only [isJsonWhitespace, Bool.or_eq_true, beq_iff_eq] at hblank
      rcases hblank with ((rfl | rfl) | rfl) | rfl <;> rfl

theorem ValueEnd.ne_colon (h : ValueEnd s) : nextNonWhitespace s ≠ some ':' := by
  intro hcolon
  rw [ValueEnd, hcolon] at h
  exact absurd h (by decide)

/-- The characters between the tokens begin none, and a value ends behind each number. -/
def Separated : List Piece → Prop
  | [] => True
  | .number _ :: pieces => ValueEnd (textOf pieces) ∧ Separated pieces
  | .string _ :: pieces => Separated pieces
  | .plain c :: pieces => (c ≠ '"' ∧ ¬ (c = '-' ∨ c.isDigit = true)) ∧ Separated pieces

theorem textOf_cons (piece : Piece) (pieces : List Piece) :
    textOf (piece :: pieces) = piece.text ++ textOf pieces := flatMap_cons

theorem textOf_append (a b : List Piece) : textOf (a ++ b) = textOf a ++ textOf b := flatMap_append

theorem textOf_plains (s : Str) : textOf (plains s) = s := by
  induction s with
  | nil => rfl
  | cons _ _ ih =>
    rw [plains, map_cons, textOf_cons, ← plains, ih]
    rfl

theorem separated_plains (hs : s.all (fun c => c ≠ '"' ∧ ¬ (c = '-' ∨ c.isDigit = true)) = true)
    (h : Separated pieces) : Separated (plains s ++ pieces) := by
  induction s with
  | nil => exact h
  | cons _ _ ih =>
    rw [all_cons, Bool.and_eq_true, decide_eq_true_iff] at hs
    exact ⟨hs.1, ih hs.2⟩

theorem separated_blank (blank : Whitespace) (h : Separated pieces) :
    Separated (plains blank.text ++ pieces) := by
  refine separated_plains (all_eq_true.mpr fun c hc => ?_) h
  have hblank := all_eq_true.mp blank.blank c hc
  simp only [isJsonWhitespace, Bool.or_eq_true, beq_iff_eq] at hblank
  rcases hblank with ((rfl | rfl) | rfl) | rfl <;> rfl

theorem ValueEnd.after (h : ValueEnd (textOf pieces)) (blank : Whitespace) :
    ValueEnd (textOf (plains blank.text ++ pieces)) := by
  rw [textOf_append, textOf_plains]
  exact h.blank blank

theorem separated_key (key : Key) (h : Separated pieces) : Separated (key.pieces ++ pieces) := by
  rw [Key.pieces, append_assoc, cons_append, append_assoc]
  exact separated_blank _ (separated_blank key.after ⟨by decide, h⟩)

mutual

theorem Json.separated {pieces : List Piece} (hend : ValueEnd (textOf pieces))
    (h : Separated pieces) : (value : Json) → Separated (value.pieces ++ pieces)
  | .null | .bool true | .bool false => separated_plains (by decide +kernel) h
  | .number _ => ⟨hend, h⟩
  | .string _ => h
  | .emptyArray inside => by
    rw [Json.pieces, List.cons_append, List.append_assoc]
    exact ⟨by decide, separated_blank inside ⟨by decide, h⟩⟩
  | .array elements => by
    rw [Json.pieces, List.cons_append, List.append_assoc]
    have hinner : Separated (.plain ']' :: pieces) := ⟨by decide, h⟩
    exact ⟨by decide, elements.separated (valueEnd_plain (by decide) pieces) hinner⟩
  | .emptyObject inside => by
    rw [Json.pieces, cons_append, append_assoc]
    exact ⟨by decide, separated_blank inside ⟨by decide, h⟩⟩
  | .object members => by
    rw [Json.pieces, cons_append, append_assoc]
    have hinner : Separated (.plain '\x7d' :: pieces) := ⟨by decide, h⟩
    exact ⟨by decide, members.separated (valueEnd_plain (by decide) pieces) hinner⟩

theorem Elements.separated {pieces : List Piece} (hend : ValueEnd (textOf pieces))
    (h : Separated pieces) : (elements : Elements) → Separated (elements.pieces ++ pieces)
  | .one before value after => by
    rw [Elements.pieces, List.append_assoc, List.append_assoc]
    exact separated_blank before (value.separated (hend.after after) (separated_blank after h))
  | .more before value after others => by
    rw [Elements.pieces, List.append_assoc, List.append_assoc, List.append_assoc, List.cons_append]
    have hothers : Separated (.plain ',' :: (others.pieces ++ pieces)) :=
      ⟨by decide, others.separated hend h⟩
    have hcomma := valueEnd_plain (c := ',') (by decide) (others.pieces ++ pieces)
    exact separated_blank before
      (value.separated (hcomma.after after) (separated_blank after hothers))

theorem Members.separated {pieces : List Piece} (hend : ValueEnd (textOf pieces))
    (h : Separated pieces) : (members : Members) → Separated (members.pieces ++ pieces)
  | .one key before value after => by
    rw [Members.pieces, List.append_assoc, List.append_assoc, List.append_assoc]
    exact separated_key key (separated_blank before
      (value.separated (hend.after after) (separated_blank after h)))
  | .more key before value after others => by
    rw [Members.pieces, List.append_assoc, List.append_assoc, List.append_assoc,
      List.append_assoc, List.cons_append]
    have hothers : Separated (.plain ',' :: (others.pieces ++ pieces)) :=
      ⟨by decide, others.separated hend h⟩
    have hcomma := valueEnd_plain (c := ',') (by decide) (others.pieces ++ pieces)
    exact separated_key key (separated_blank before
      (value.separated (hcomma.after after) (separated_blank after hothers)))

end

variable (document : Document) (numeral : Numeral)

theorem Document.separated : Separated document.pieces := by
  have hnil : ValueEnd (textOf []) := mem_cons_self
  have hvalue := document.value.separated (hnil.after document.after)
    (separated_blank document.after trivial)
  rw [append_nil] at hvalue
  exact separated_blank document.before hvalue

/-! ## A number in place -/

theorem Numeral.text_isNumberChar : ∀ c ∈ numeral.text, isNumberChar c = true := by
  have hdigits : ∀ (digits : Digits), ∀ c ∈ digits.text, isNumberChar c = true := by
    intro digits c hc
    rw [isNumberChar, digits.isDigit c hc, Bool.true_or]
  rw [text, forall_mem_append, forall_mem_append, forall_mem_append]
  refine ⟨?_, hdigits numeral.whole, ?_, ?_⟩
  · rw [signText]
    split
    · exact forall_mem_singleton.mpr rfl
    · exact forall_mem_nil _
  · rw [fractionText]
    cases numeral.fraction with
    | none => exact forall_mem_nil _
    | some digits => exact forall_mem_cons.mpr ⟨rfl, hdigits digits⟩
  · rw [exponentText]
    cases numeral.exponent with
    | none => exact forall_mem_nil _
    | some exponent =>
      refine forall_mem_cons.mpr ⟨?_, forall_mem_append.mpr ⟨?_, hdigits exponent.digits⟩⟩
      · rcases exponent.letter_eq with h | h <;> rw [h] <;> rfl
      · rcases exponent.sign_eq with h | h | h <;> rw [h]
        · exact forall_mem_nil _
        · exact forall_mem_singleton.mpr rfl
        · exact forall_mem_singleton.mpr rfl

theorem ne_quote_of_isNumberChar (h : isNumberChar c = true) : c ≠ '"' := by
  rintro rfl
  exact absurd h (by decide)

theorem maskAt_length {n : Nat} {number : MaskedJsonNumber} (h : maskAt s = some (n, number)) :
    0 < n ∧ n ≤ s.length := by
  cases s with
  | nil => cases h
  | cons =>
    rw [maskAt] at h
    split at h
    · obtain ⟨_, hscan, hmasked⟩ := bind_eq_some_iff.mp h
      obtain ⟨_, _, heq⟩ := map_eq_some_iff.mp hmasked
      cases heq
      exact scanJsonNumber_le hscan
    · cases h

theorem maskAt_append {rest : Str} (hstop : StopsNumber rest) (c : Char) (s : Str) :
    maskAt (c :: (s ++ rest)) = maskAt (c :: s) := by
  rw [maskAt, maskAt, ← cons_append, scanJsonNumber_append hstop]
  split
  · cases hscan : scanJsonNumber (c :: s) with
    | none => rfl
    | some =>
      rw [bind_some, bind_some, take_append_of_le_length (scanJsonNumber_le hscan).2]
  · rfl

theorem Numeral.text_cons : ∃ c s, numeral.text = c :: s ∧ (c = '-' ∨ c.isDigit = true) := by
  rw [text, signText]
  rcases numeral.negative with _ | _
  · obtain ⟨c, s, hdigits, hc⟩ := numeral.whole.head?_isDigit
    refine ⟨c, s ++ (numeral.fractionText ++ numeral.exponentText), ?_, .inr hc⟩
    rw [hdigits]
    rfl
  · exact ⟨'-', _, rfl, .inl rfl⟩

/-- At its beginning a number is scanned to its end. -/
theorem Numeral.maskAt_text :
    maskAt numeral.text = (maskedNumber numeral.text numeral.isInteger).map
      fun number => (numeral.text.length, number) := by
  have hscan := numeral.scanJsonNumber_text
  obtain ⟨_, _, htext, hc⟩ := numeral.text_cons
  rw [htext] at hscan ⊢
  rw [maskAt, if_pos hc, hscan, bind_some, take_length]

theorem length_le_textOf (pieces : List Piece) : pieces.length ≤ (textOf pieces).length := by
  induction pieces with
  | nil => exact Nat.le_refl _
  | cons piece =>
    have hpos : 0 < piece.text.length := by
      cases piece with
      | number numeral =>
        obtain ⟨_, _, htext, _⟩ := numeral.text_cons
        rw [text, htext]
        exact Nat.succ_pos _
      | string | plain => exact Nat.succ_pos _
    rw [textOf_cons, length_append, length_cons]
    omega

section Numbers
variable {nonce} {count : Nat} {rest : Str}

theorem maskFrom_outOfRange {numeral : Numeral} (h : numeral.OutOfRange) (hend : ValueEnd rest) :
    maskFrom nonce count 0 (numeral.text ++ rest)
      = (encodedMarker nonce count ++ (maskFrom nonce (count + 1) 0 rest).1,
          (marker nonce count, .bigInteger numeral.text)
            :: (maskFrom nonce (count + 1) 0 rest).2) := by
  have hmask := numeral.maskAt_text
  rw [maskedNumber, if_pos ⟨h.1, (numeral.isOutOfRangeInteger_text h.1).mpr h.2⟩] at hmask
  have hquote := fun c hc => ne_quote_of_isNumberChar (numeral.text_isNumberChar c hc)
  generalize numeral.text = text at *
  cases text with
  | nil => cases hmask
  | cons c s =>
    have hdrop : (s ++ rest).drop s.length = rest := drop_left
    have hwhole : maskAt (c :: (s ++ rest)) = some (s.length + 1, .bigInteger (c :: s)) :=
      (maskAt_append hend.stopsNumber c s).trans hmask
    have hcolon : nextNonWhitespace ((s ++ rest).drop s.length) ≠ some ':' := by
      rw [hdrop]
      exact hend.ne_colon
    rw [cons_append, maskFrom_mark (hquote c mem_cons_self) hwhole hcolon, hdrop]

variable {run : Str}

/-- Where no part of a run is a number to mask, the run is copied. -/
theorem maskFrom_run (hstop : StopsNumber rest) (hrun : ∀ c ∈ run, isNumberChar c = true)
    (hnone : ∀ part ∈ run.tails, maskAt part = none) :
    maskFrom nonce count 0 (run ++ rest)
      = (run ++ (maskFrom nonce count 0 rest).1, (maskFrom nonce count 0 rest).2) := by
  induction run with
  | nil => rfl
  | cons c run ih =>
    rw [forall_mem_cons] at hrun
    rw [tails_cons, forall_mem_cons] at hnone
    have hquote := ne_quote_of_isNumberChar hrun.1
    rw [cons_append, maskFrom_copy hquote ((maskAt_append hstop c run).trans hnone.1),
      ih hrun.2 hnone.2]
    rfl

/-- What a number leaves behind it inside a run of number characters is no colon. -/
theorem ne_colon_of_run (hend : ValueEnd rest) (hrun : ∀ c ∈ run, isNumberChar c = true) :
    nextNonWhitespace (run ++ rest) ≠ some ':' := by
  cases run with
  | nil => exact hend.ne_colon
  | cons c =>
    have hc := hrun c mem_cons_self
    have hblank : ¬ isJsonWhitespace c = true := by
      intro hblank
      simp only [isJsonWhitespace, Bool.or_eq_true, beq_iff_eq] at hblank
      rcases hblank with ((rfl | rfl) | rfl) | rfl <;> exact absurd hc (by decide)
    rw [nextNonWhitespace, cons_append, dropWhile_cons_of_neg hblank]
    intro hcolon
    cases hcolon
    exact absurd hc (by decide)

/-- Where some part of a run is a number to mask, the run is not copied: a quote
    stands where that part begins. -/
theorem maskFrom_run_ne (hend : ValueEnd rest) (hrun : ∀ c ∈ run, isNumberChar c = true)
    (hsome : ∃ part ∈ run.tails, maskAt part ≠ none) (behind : Str) :
    (maskFrom nonce count 0 (run ++ rest)).1 ≠ run ++ behind := by
  induction run with
  | nil =>
    obtain ⟨_, hpart, hmask⟩ := hsome
    rw [mem_tails, suffix_nil] at hpart
    rw [hpart] at hmask
    exact absurd rfl hmask
  | cons c run ih =>
    obtain ⟨hc, hrun⟩ := forall_mem_cons.mp hrun
    have hquote := ne_quote_of_isNumberChar hc
    have happend := maskAt_append hend.stopsNumber c run
    cases hmask : maskAt (c :: run) with
    | none =>
      rw [cons_append, maskFrom_copy hquote (happend.trans hmask)]
      intro heq
      refine ih hrun ?_ (cons.inj heq).2
      obtain ⟨part, hpart, hpartmask⟩ := hsome
      rcases mem_cons.mp (tails_cons c run ▸ hpart) with rfl | hpart
      · exact absurd hmask hpartmask
      · exact ⟨part, hpart, hpartmask⟩
    | some found =>
      obtain ⟨n, _⟩ := found
      obtain ⟨hpos, hle⟩ := maskAt_length hmask
      obtain ⟨n, rfl⟩ := Nat.exists_eq_succ_of_ne_zero (Nat.pos_iff_ne_zero.mp hpos)
      have hdrop : (run ++ rest).drop n = run.drop n ++ rest :=
        drop_append_of_le_length (Nat.le_of_succ_le_succ hle)
      have hcolon : nextNonWhitespace ((run ++ rest).drop n) ≠ some ':' := by
        rw [hdrop]
        exact ne_colon_of_run hend fun d hd => hrun d (mem_of_mem_drop hd)
      rw [cons_append, maskFrom_mark hquote (happend.trans hmask) hcolon]
      intro heq
      exact hquote (cons.inj heq).1.symm

end Numbers

/-! ## The whole text -/

section Pieces
variable {nonce}

/-- What masking a text gives, where no number is disturbed. -/
theorem maskFrom_pieces {pieces : List Piece} (hsep : Separated pieces)
    (h : ∀ numeral, .number numeral ∈ pieces → numeral.Undisturbed) (count : Nat) :
    maskFrom nonce count 0 (textOf pieces)
      = (textOf (maskPieces nonce count pieces), markers nonce count (bigIntegers pieces)) := by
  induction pieces generalizing count with
  | nil => rfl
  | cons piece pieces ih =>
    have hothers := fun numeral hmem => h numeral (mem_cons_of_mem piece hmem)
    rw [textOf_cons]
    cases piece with
    | number numeral =>
      rw [text, maskPieces, bigIntegers]
      by_cases hrange : numeral.OutOfRange
      · rw [maskFrom_outOfRange hrange hsep.1, ih hsep.2 hothers, if_pos hrange, if_pos hrange]
        rfl
      · have hnone := (h numeral mem_cons_self).resolve_left hrange
        rw [maskFrom_run hsep.1.stopsNumber numeral.text_isNumberChar hnone,
          ih hsep.2 hothers, if_neg hrange, if_neg hrange, textOf_cons, text]
    | string =>
      rw [text, maskFrom_string, ih hsep hothers]
      rfl
    | plain c =>
      have hnone : maskAt (c :: textOf pieces) = none := if_neg hsep.1.2
      rw [text, cons_append, nil_append, maskFrom_copy hsep.1.1 hnone, ih hsep.2 hothers]
      rfl

/-- A disturbed number does not come out of the masking. -/
theorem undisturbed_of_maskFrom {pieces : List Piece} (hsep : Separated pieces) {count : Nat}
    (h : (maskFrom nonce count 0 (textOf pieces)).1 = textOf (maskPieces nonce count pieces)) :
    ∀ numeral, .number numeral ∈ pieces → numeral.Undisturbed := by
  induction pieces generalizing count with
  | nil => nofun
  | cons piece pieces ih =>
    rw [textOf_cons] at h
    intro other hmem
    cases piece with
    | number numeral =>
      rw [text, maskPieces] at h
      by_cases hrange : numeral.OutOfRange
      · rw [maskFrom_outOfRange hrange hsep.1, if_pos hrange] at h
        rcases mem_cons.mp hmem with heq | hmem
        · cases heq
          exact .inl hrange
        · exact ih hsep.2 (append_cancel_left h) other hmem
      · rw [if_neg hrange] at h
        by_cases hnone : ∀ part ∈ numeral.text.tails, maskAt part = none
        · rw [maskFrom_run hsep.1.stopsNumber numeral.text_isNumberChar hnone] at h
          rcases mem_cons.mp hmem with heq | hmem
          · cases heq
            exact .inr hnone
          · exact ih hsep.2 (append_cancel_left h) other hmem
        · push Not at hnone
          exact absurd h (maskFrom_run_ne hsep.1 numeral.text_isNumberChar hnone _)
    | string =>
      rw [text, maskFrom_string] at h
      exact ih hsep (append_cancel_left h) other ((mem_cons.mp hmem).resolve_left nofun)
    | plain c =>
      have hnone : maskAt (c :: textOf pieces) = none := if_neg hsep.1.2
      rw [text, cons_append, nil_append, maskFrom_copy hsep.1.1 hnone] at h
      exact ih hsep.2 (cons.inj h).2 other ((mem_cons.mp hmem).resolve_left nofun)

end Pieces

theorem Document.mem_numerals {document : Document} {numeral : Numeral} :
    numeral ∈ document.numerals ↔ .number numeral ∈ document.pieces := by
  rw [Document.numerals, mem_filterMap]
  refine ⟨?_, fun hmem => ⟨_, hmem, rfl⟩⟩
  rintro ⟨_ | _ | _, hmem, hsome⟩ <;> cases hsome
  exact hmem

theorem Document.mem_tokens {document : Document} {token : StringToken} :
    token ∈ document.tokens ↔ .string token ∈ document.pieces := by
  rw [Document.tokens, mem_filterMap]
  refine ⟨?_, fun hmem => ⟨_, hmem, rfl⟩⟩
  rintro ⟨_ | _ | _, hmem, hsome⟩ <;> cases hsome
  exact hmem

/-- Masking is exact when no number is disturbed, and never else. -/
theorem maskJsonNumbers_exact_iff (nonce : UInt64) :
    maskJsonNumbers document.text nonce = document.exactMask nonce
      ↔ ∀ numeral ∈ document.numerals, numeral.Undisturbed := by
  simp only [Document.mem_numerals]
  constructor
  · intro h
    exact undisturbed_of_maskFrom document.separated (congrArg Prod.fst h)
  · intro h
    exact maskFrom_pieces document.separated h 0

end Velnor.Context
