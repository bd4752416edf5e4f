/-
  What the lossless reader makes of a document.  Where masking is exact the
  library is given the masked document; the reader then counts the markers, takes
  another nonce while a string of the document looks like one, and puts the
  integers back.

  A document whose numbers are undisturbed is read as what it means, unless the
  library refuses it or an object has two names that are the same under its
  lookup rule.
-/
import Velnor.Context.JsonRestore

namespace Velnor.Context

open Text Piece Relational List Document

/-! ## The library on the masked document -/

section MaskedPieces
variable {nonce : UInt64} {count : Nat} {pieces : List Piece}

/-- A piece is kept, or it is an integer that gives way to a marker. -/
theorem maskPieces_cons (nonce : UInt64) (count : Nat) (piece : Piece) (pieces : List Piece) :
    ∃ kept next, maskPieces nonce count (piece :: pieces) = kept :: maskPieces nonce next pieces
      ∧ ((kept = piece ∧ ∀ numeral, piece = .number numeral → ¬ numeral.OutOfRange)
        ∨ ∃ numeral, piece = .number numeral ∧ kept = .string (markerToken nonce count)) := by
  cases piece with
  | number numeral =>
    rw [maskPieces]
    split
    · exact ⟨_, _, rfl, .inr ⟨numeral, rfl, rfl⟩⟩
    case isFalse hrange => exact ⟨_, _, rfl, .inl ⟨rfl, by rintro _ ⟨⟩; exact hrange⟩⟩
  | string | plain => exact ⟨_, _, rfl, .inl ⟨rfl, nofun⟩⟩

theorem string_mem_maskPieces {token : StringToken} (h : .string token ∈ pieces) :
    .string token ∈ maskPieces nonce count pieces := by
  induction pieces generalizing count with
  | nil => cases h
  | cons piece pieces ih =>
    obtain ⟨_, _, heq, hkept⟩ := maskPieces_cons nonce count piece pieces
    rw [heq]
    rcases mem_cons.mp h with rfl | hmem
    · obtain ⟨rfl, -⟩ | ⟨_, hnumber, -⟩ := hkept
      · exact mem_cons_self
      · cases hnumber
    · exact mem_cons_of_mem _ (ih hmem)

theorem of_mem_maskPieces {piece : Piece} (h : piece ∈ maskPieces nonce count pieces) :
    (piece ∈ pieces ∧ ∀ numeral, piece = .number numeral → ¬ numeral.OutOfRange)
      ∨ ∃ index, piece = .string (markerToken nonce index) := by
  induction pieces generalizing count with
  | nil => cases h
  | cons other pieces ih =>
    obtain ⟨_, _, heq, hkept⟩ := maskPieces_cons nonce count other pieces
    rw [heq] at h
    rcases mem_cons.mp h with rfl | h
    · obtain ⟨rfl, hrange⟩ | ⟨_, -, hmark⟩ := hkept
      · exact .inl ⟨mem_cons_self, hrange⟩
      · exact .inr ⟨count, hmark⟩
    · exact (ih h).imp_left fun hin => ⟨mem_cons_of_mem _ hin.1, hin.2⟩

theorem mem_bigIntegers {digits : Str} : digits ∈ bigIntegers pieces ↔
    ∃ numeral, .number numeral ∈ pieces ∧ numeral.OutOfRange ∧ digits = numeral.text := by
  induction pieces with
  | nil => simp [bigIntegers]
  | cons piece _ ih =>
    cases piece with
    | number =>
      rw [bigIntegers]
      split
      all_goals
        rename_i hrange
        simp [ih, or_and_right, exists_or, hrange]
    | string | plain => simp only [bigIntegers, ih, mem_cons, reduceCtorEq, false_or]

end MaskedPieces

/-- An `i64` is no number beyond the doubles. -/
theorem Numeral.not_overflows_of_inI64 {numeral : Numeral} (hint : numeral.isInteger = true)
    (hin : InI64 numeral.integer) : ¬ numeral.Overflows := by
  have hmagnitude : numeral.magnitude ≤ 2 ^ 63 := by
    rw [InI64, integer] at hin
    split at hin <;> omega
  rw [isInteger, Bool.and_eq_true, Option.isNone_iff_eq_none, Option.isNone_iff_eq_none] at hint
  have hsmall : overflows numeral.magnitude 0 = false := by
    rw [overflows]
    split
    · rfl
    rw [if_neg (by decide), if_pos (by decide), decide_eq_false_iff_not]
    rw [Int.toNat_zero, Nat.pow_zero, Nat.mul_one]
    omega
  have hdouble : numeral.double = .finite numeral.negative numeral.magnitude 0 := by
    rw [double, fractionDigits, hint.1, hint.2, Option.map_none, Option.getD_none,
      append_nil, Double.ofDecimal]
    exact if_neg (by rw [magnitude] at hsmall; simp [hsmall])
  rw [Overflows, hdouble]
  rintro ⟨⟩

/-- A number left in place without harm is one the library reads. -/
theorem Numeral.not_overflows {numeral : Numeral} (h : numeral.Undisturbed)
    (hrange : ¬ numeral.OutOfRange) : ¬ numeral.Overflows := by
  have hnone := h.resolve_left hrange numeral.text ((mem_tails _ _).mpr suffix_rfl)
  rw [numeral.maskAt_text, Option.map_eq_none_iff, numeral.maskedNumber_eq_none_iff hrange] at hnone
  rcases hint : numeral.isInteger with _ | _
  · exact hnone hint
  · exact numeral.not_overflows_of_inI64 hint (not_not.mp fun hout => hrange ⟨hint, hout⟩)

namespace Document

variable (library : JsonLibrary) (document : Document)

/-- The library can take the document: its strings are Unicode, and it does not
    nest too deep. -/
def Readable : Prop :=
  (∀ token ∈ document.tokens, (unescape token.body).isSome)
    ∧ (document.value.tree library.bits).nesting ≤ library.nestingLimit

/-- The integers outside the range of `i64` are within the digit limit. -/
def IntegersFit : Prop :=
  ∀ numeral ∈ document.numerals, numeral.OutOfRange → numeral.text.length ≤ maxBigIntegerChars

variable {library document}

theorem integersFit_pieces (h : document.IntegersFit) : Context.IntegersFit document.pieces := by
  intro _ hmem
  obtain ⟨numeral, hnumeral, hrange, rfl⟩ := mem_bigIntegers.mp hmem
  exact h numeral (mem_numerals.mpr hnumeral) hrange

theorem read_masked (h : ∀ numeral ∈ document.numerals, numeral.Undisturbed) {nonce : UInt64}
    (hread : library.Reads (document.masked nonce)) :
    (document.Readable library →
      library.read (textOf (maskPieces nonce 0 document.pieces))
        = some ((document.value.masked nonce 0).tree library.bits))
    ∧ (¬ document.Readable library →
      library.read (textOf (maskPieces nonce 0 document.pieces)) = none) := by
  have htokens : (∀ token ∈ (document.masked nonce).tokens, (unescape token.body).isSome)
      ↔ ∀ token ∈ document.tokens, (unescape token.body).isSome := by
    simp only [mem_tokens, masked_pieces]
    constructor
    · exact fun hall token hmem => hall token (string_mem_maskPieces hmem)
    intro hall token hmem
    rcases of_mem_maskPieces hmem with ⟨hmem, -⟩ | ⟨index, heq⟩
    · exact hall token hmem
    · cases heq
      rw [unescape_markerToken]
      rfl
  have hnumerals : ∀ numeral ∈ (document.masked nonce).numerals, ¬ numeral.Overflows := by
    intro numeral hmem
    rw [mem_numerals, masked_pieces] at hmem
    rcases of_mem_maskPieces hmem with ⟨hmem, hrange⟩ | ⟨index, heq⟩
    · exact Numeral.not_overflows (h numeral (mem_numerals.mpr hmem)) (hrange numeral rfl)
    · cases heq
  have hnesting := document.value.nesting_masked library.bits nonce 0
  rw [JsonLibrary.Reads, text, masked_pieces] at hread
  constructor
  · intro hok
    rw [hread, if_pos]
    · rfl
    · exact ⟨htokens.mpr hok.1, hnumerals, hnesting.le.trans hok.2⟩
  · intro hno
    rw [hread, if_neg]
    exact fun hok => hno ⟨htokens.mp hok.1, hnesting.ge.trans hok.2.2⟩

end Document

/-! ## The loop over the nonces -/

section Loop
variable {library : JsonLibrary} {upper : Char → Char} {document : Document}
  {comparer : JsonObjectComparer}

/-- A string of the document looks like one of its markers under this nonce. -/
def Document.Collides (document : Document) (nonce : UInt64) : Prop :=
  Context.Collides document.value.strings (bigIntegers document.pieces).length nonce

/-- What the reader answers for a document that the library can take. -/
noncomputable def Document.answer (library : JsonLibrary) (upper : Char → Char)
    (comparer : JsonObjectComparer) (document : Document) : Except JsonError ContextValue :=
  (verdict (document.value.NamesDiffer upper comparer true)
    (document.value.contextValue library.bits comparer true)).mapError .context

theorem find?_marker {nonce : UInt64} {count : Nat} {digits : List Str}
    {entry : Str × MaskedJsonNumber} (h : entry ∈ markers nonce count digits) :
    (markers nonce count digits).find? (fun number => number.1 == entry.1) = some entry
      ∧ ∃ index, count ≤ index ∧ index < count + digits.length ∧ entry.1 = marker nonce index := by
  induction digits generalizing count with
  | nil => cases h
  | cons _ _ ih =>
    rw [markers] at h ⊢
    rw [length_cons]
    rcases mem_cons.mp h with rfl | h
    · exact ⟨find?_cons_of_pos (beq_self_eq_true _), count, Nat.le_refl _, by omega, rfl⟩
    obtain ⟨hfind, index, _, _, heq⟩ := ih h
    refine ⟨?_, index, by omega, by omega, heq⟩
    rw [find?_cons_of_neg, hfind]
    rw [beq_iff_eq, heq]
    intro hsame
    have hindex := (marker_inj hsame).2
    omega

theorem markers_map (nonce : UInt64) (count : Nat) (digits : List Str) :
    (markers nonce count digits).map (·.1) = markerTexts nonce count digits.length := by
  induction digits generalizing count with
  | nil => rfl
  | cons _ _ ih =>
    rw [markers, map_cons, ih, length_cons]
    simp only [markerTexts, range'_succ, map_cons]

/-- How often each marker occurs: once, and once more for each string like it. -/
theorem occurrences_eq (nonce : UInt64) (document : Document) (bits : Double → UInt64) :
    (markers nonce 0 (bigIntegers document.pieces)).map
        (fun number => countOrderedStrings number.1 ((document.value.masked nonce 0).tree bits))
      = (range (bigIntegers document.pieces).length).map fun index =>
          document.value.strings.count (marker nonce index) + 1 := by
  have hpieces : bigIntegers document.pieces = bigIntegers document.value.pieces := by
    rw [pieces, bigIntegers_append, bigIntegers_append, bigIntegers_plains,
      bigIntegers_plains, nil_append, append_nil]
  have hmap : ∀ f : Str → Nat,
      (markers nonce 0 (bigIntegers document.pieces)).map (fun number => f number.1)
        = (range (bigIntegers document.pieces).length).map fun index =>
            f (marker nonce index) := by
    intro f
    have hnames := congrArg (map f) (markers_map nonce 0 (bigIntegers document.pieces))
    rw [markerTexts, map_map, map_map, ← range_eq_range'] at hnames
    exact hnames
  rw [hmap fun name => countOrderedStrings name ((document.value.masked nonce 0).tree bits)]
  refine map_congr_left fun index hindex => ?_
  rw [Json.count_masked, ← hpieces, count_markerTexts (mem_range.mp hindex)]

section Turn
variable (h : ∀ numeral ∈ document.numerals, numeral.Undisturbed)
  (hlibrary : ∀ nonce, library.Reads (document.masked nonce)) (fuel : Nat) {nonce : UInt64}
include h hlibrary

theorem parse_unreadable (hread : ¬ document.Readable library) :
    parseOrderedJsonWithNonce upper library.read document.text comparer (fuel + 1) nonce
      = some (.error .syntaxError) := by
  have hmask := (maskJsonNumbers_exact_iff document nonce).mpr h
  rw [parseOrderedJsonWithNonce, hmask, exactMask]
  simp only [(read_masked h (hlibrary nonce)).2 hread]

variable (hread : document.Readable library)
include hread

/-- A turn of the loop: no marker is missing, and one that occurs twice is the
    only reason for another turn. -/
theorem parse_turn :
    parseOrderedJsonWithNonce upper library.read document.text comparer (fuel + 1) nonce
      = open Classical in
        if document.Collides nonce then
          parseOrderedJsonWithNonce upper library.read document.text comparer fuel (nonce + 1)
        else some ((intoContextValue upper
          (markers nonce 0 (bigIntegers document.pieces)) comparer true
          ((document.value.masked nonce 0).tree library.bits)).mapError .context) := by
  have hmask := (maskJsonNumbers_exact_iff document nonce).mpr h
  rw [parseOrderedJsonWithNonce, hmask, exactMask]
  simp only [(read_masked h (hlibrary nonce)).1 hread, occurrences_eq]
  have hzero : ¬ 0 ∈ (range (bigIntegers document.pieces).length).map fun index =>
      document.value.strings.count (marker nonce index) + 1 := by
    simp
  have hany : ((range (bigIntegers document.pieces).length).map fun index =>
      document.value.strings.count (marker nonce index) + 1).any (· > 1) = true
        ↔ document.Collides nonce := by
    simp only [any_eq_true, mem_map, mem_range, decide_eq_true_eq, Document.Collides,
      Context.Collides]
    constructor
    · rintro ⟨_, ⟨index, hindex, rfl⟩, _⟩
      exact ⟨index, hindex, count_pos_iff.mp (by omega)⟩
    · rintro ⟨index, hindex, hmem⟩
      have hpos := count_pos_iff.mpr hmem
      exact ⟨_, ⟨index, hindex, rfl⟩, by omega⟩
  rw [if_neg hzero]
  by_cases hcollides : document.Collides nonce
  · rw [if_pos (hany.mpr hcollides), if_pos hcollides]
  · rw [if_neg (fun hmany => hcollides (hany.mp hmany)), if_neg hcollides]

/-- Without a collision the document is restored. -/
theorem parse_last (hfit : document.IntegersFit) (hfree : ¬ document.Collides nonce) :
    parseOrderedJsonWithNonce upper library.read document.text comparer (fuel + 1) nonce
      = some (document.answer library upper comparer) := by
  have hknown : Restorable (markers nonce 0 (bigIntegers document.pieces)) nonce 0
      document.pieces document.value.strings := by
    refine ⟨fun entry hmem => (find?_marker hmem).1, fun string hmem => ?_, integersFit_pieces hfit⟩
    rw [find?_eq_none]
    intro _ hentry heq
    obtain ⟨-, index, -, hindex, hmarker⟩ := find?_marker hentry
    rw [Nat.zero_add] at hindex
    rw [← beq_iff_eq.mp heq, hmarker] at hmem
    exact hfree ⟨index, hindex, hmem⟩
  have hvalue := (hknown.behind (bigIntegers_plains _)).first
  rw [parse_turn h hlibrary _ hread, if_neg hfree, document.value.into_masked _ _ _ _ _ hvalue,
    Document.answer]

/-- The loop ends, with enough turns. -/
theorem parse_terminates (hsize : document.text.length < 2 ^ 64) (hfit : document.IntegersFit)
    (nonce : UInt64) :
    ∃ fuel, parseOrderedJsonWithNonce upper library.read document.text comparer fuel nonce
      = some (document.answer library upper comparer) := by
  have hstrings : document.value.strings.length < 2 ^ 64 := by
    have hvalue := document.value.strings_length
    have htext := length_le_textOf document.pieces
    rw [pieces, length_append, length_append, ← pieces, ← Document.text] at htext
    omega
  obtain ⟨turns, hfree⟩ := exists_free_nonce _ (bigIntegers document.pieces).length nonce hstrings
  induction turns generalizing nonce with
  | zero =>
    have hzero : nonce + UInt64.ofNat 0 = nonce := UInt64.add_zero nonce
    rw [hzero] at hfree
    exact ⟨1, parse_last h hlibrary 0 hread hfit hfree⟩
  | succ turns ih =>
    by_cases hnow : document.Collides nonce
    · have hshift : nonce + UInt64.ofNat (turns + 1) = nonce + 1 + UInt64.ofNat turns := by
        rw [UInt64.ofNat_add, UInt64.add_comm (UInt64.ofNat turns), UInt64.add_assoc]
        rfl
      rw [hshift] at hfree
      obtain ⟨fuel, hfuel⟩ := ih (nonce + 1) hfree
      refine ⟨fuel + 1, ?_⟩
      rw [parse_turn h hlibrary _ hread, if_pos hnow, hfuel]
    · exact ⟨1, parse_last h hlibrary 0 hread hfit hnow⟩

/-- Whatever the number of turns, the answer is that one. -/
theorem parse_answer (hfit : document.IntegersFit) {answer : Except JsonError ContextValue}
    (hanswer : parseOrderedJsonWithNonce upper library.read document.text comparer fuel
      nonce = some answer) :
    answer = document.answer library upper comparer := by
  induction fuel generalizing nonce with
  | zero => cases hanswer
  | succ fuel ih =>
    by_cases hnow : document.Collides nonce
    · rw [parse_turn h hlibrary _ hread, if_pos hnow] at hanswer
      exact ih hanswer
    · rw [parse_last h hlibrary fuel hread hfit hnow] at hanswer
      exact (Option.some.inj hanswer).symm

end Turn

end Loop

/-! ## The reader -/

/-- For every document: the masking replaces exactly the integers outside the
    range of `i64`, and the reader takes the document for what it means when
    these integers are within the digit limit, if and only if no number that
    stays in place has a part which is masked, and the library and the names of
    the objects do not stop it. -/
theorem lossless_reader_iff (library : JsonLibrary) (upper : Char → Char) (document : Document)
    (hlibrary : ∀ nonce, library.Reads (document.masked nonce))
    (hsize : document.text.length < 2 ^ 64) (nonce : UInt64) (comparer : JsonObjectComparer) :
    (maskJsonNumbers document.text nonce = document.exactMask nonce
      ∧ (document.IntegersFit → ∃ fuel,
          parseOrderedJsonWithNonce upper library.read document.text comparer fuel nonce
            = some (.ok (document.value.contextValue library.bits comparer true))))
    ↔ ((∀ numeral ∈ document.numerals, numeral.Undisturbed)
      ∧ (document.IntegersFit → document.Readable library
          ∧ document.value.NamesDiffer upper comparer true)) := by
  rw [maskJsonNumbers_exact_iff]
  refine and_congr_right fun h => imp_congr_right fun hfit => ?_
  constructor
  · rintro ⟨fuel, hok⟩
    have hread : document.Readable library := by
      by_contra hno
      cases fuel with
      | zero => cases hok
      | succ =>
        rw [parse_unreadable h hlibrary _ hno] at hok
        cases hok
    refine ⟨hread, ?_⟩
    by_contra hsame
    have hanswer := parse_answer h hlibrary fuel hread hfit hok
    rw [Document.answer, verdict_of_false hsame] at hanswer
    cases hanswer
  · rintro ⟨hread, hdiffer⟩
    obtain ⟨fuel, hok⟩ := parse_terminates h hlibrary hread hsize hfit nonce
    rw [Document.answer, verdict_of_true hdiffer] at hok
    exact ⟨fuel, hok⟩

/-- The text `[18446744073709551616]`. -/
def largeDocument : Document where
  before := ⟨[], rfl⟩
  value := .array (.one ⟨[], rfl⟩ (.number {
    negative := false
    whole := ⟨"18446744073709551616", by decide, by decide⟩
    canonical := by decide
    fraction := none
    exponent := none }) ⟨[], rfl⟩)
  after := ⟨[], rfl⟩

/-- Reads an array of one string, and takes no other text. -/
def readStringArray : Str → Option OrderedJsonValue
  | '[' :: '"' :: s =>
    if s.drop (s.length - 2) = ['"', ']'] then
      (unescape (s.take (s.length - 2))).map fun value => .array [.string value]
    else none
  | _ => none

def stringArrayLibrary : JsonLibrary := ⟨fun _ => 0, 127, readStringArray⟩

theorem stringArrayLibrary_reads (nonce : UInt64) :
    stringArrayLibrary.Reads (largeDocument.masked nonce) := by
  let masked : Document :=
    ⟨⟨[], rfl⟩, .array (.one ⟨[], rfl⟩ (.string (markerToken nonce 0)) ⟨[], rfl⟩), ⟨[], rfl⟩⟩
  have hmasked : largeDocument.masked nonce = masked := by
    rw [Document.masked, largeDocument, Json.masked, Elements.masked, Json.masked,
      if_pos (by decide +kernel)]
  have htext : masked.text = '[' :: '"' :: ((markerToken nonce 0).body ++ ['"', ']']) := by
    simp [masked, Document.text, Document.pieces, Json.pieces, Elements.pieces, Piece.textOf,
      Piece.text, Piece.plains, StringToken.text]
  have hread : readStringArray masked.text = some (.array [.string (marker nonce 0)]) := by
    simp [htext, readStringArray, unescape_markerToken]
  rw [hmasked, JsonLibrary.Reads, show stringArrayLibrary.read = readStringArray from rfl, hread,
    if_pos]
  · simp [masked, Json.tree, Elements.trees, markerToken_value]
  · simp [masked, Document.tokens, Document.numerals, Document.pieces, Json.pieces,
      Elements.pieces, Piece.plains, unescape_markerToken, Json.tree, Elements.trees,
      OrderedJsonValue.nesting, OrderedJsonValue.nestingAll, stringArrayLibrary]

theorem lossless_reader_large :
    largeDocument.text.length < 2 ^ 64
      ∧ maskJsonNumbers largeDocument.text 0 = largeDocument.exactMask 0
      ∧ (largeDocument.IntegersFit → ∃ fuel,
          parseOrderedJsonWithNonce id stringArrayLibrary.read largeDocument.text
            .caseSensitive fuel 0
          = some (.ok (largeDocument.value.contextValue (fun _ => 0) .caseSensitive true))) := by
  have hsize : largeDocument.text.length < 2 ^ 64 := by decide +kernel
  refine ⟨hsize, (lossless_reader_iff stringArrayLibrary id largeDocument
    stringArrayLibrary_reads hsize 0 .caseSensitive).mpr
      ⟨by decide +kernel, fun _ => ⟨⟨by decide +kernel, by decide +kernel⟩, ?_⟩⟩⟩
  trivial

/-- The least `i64`, which is in range, without the minus sign is not. -/
def minimumNumeral : Numeral where
  negative := true
  whole := ⟨"9223372036854775808", by decide, by decide⟩
  canonical := by decide
  fraction := none
  exponent := none

def minimumDocument : Document := ⟨⟨[], rfl⟩, .number minimumNumeral, ⟨[], rfl⟩⟩

theorem lossless_reader_minimum :
    minimumDocument.text = "-9223372036854775808"
      ∧ minimumDocument.exactMask 0 = ("-9223372036854775808".toList, [])
      ∧ maskJsonNumbers minimumDocument.text 0
        = ("-\"\\u0000__velnor_masked_number_0_0__\"".toList,
            [(marker 0 0, .bigInteger "9223372036854775808".toList)])
      ∧ parseOrderedJsonWithNonce id stringArrayLibrary.read minimumDocument.text
          .caseSensitive 1 0 = some (.error .syntaxError) := by
  refine ⟨by decide +kernel, by decide +kernel, by decide +kernel, rfl⟩

end Velnor.Context
