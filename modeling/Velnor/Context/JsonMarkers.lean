/-
  The masked document.  Its tree is the tree of the document with a marker
  string for each integer outside the range of `i64`.  Markers of different
  nonces or places differ, so a string of the document can be the marker of one
  nonce only, and some nonce is free of them all.
-/
import Velnor.Context.JsonMasking

namespace Velnor.Context

open Text Piece List Nat Json

/-! ## Markers -/

/-- Digits with an underscore behind them can be told from what follows. -/
theorem digits_score_inj {a b : Nat} {s t : Str}
    (h : toDigits 10 a ++ '_' :: s = toDigits 10 b ++ '_' :: t) : a = b ∧ s = t := by
  have hrun : ∀ (n : Nat) (u : Str),
      (toDigits 10 n ++ '_' :: u).takeWhile Char.isDigit = toDigits 10 n := by
    intro _ _
    refine takeWhile_append_stop (fun c => isDigit_of_mem_toDigits) ?_
    intro _ hc
    cases hc
    rfl
  have hdigits := congrArg (takeWhile Char.isDigit) h
  rw [hrun, hrun] at hdigits
  have hvalue := congrArg parseDigits? hdigits
  rw [parseDigits?_toDigits, parseDigits?_toDigits, Option.some_inj] at hvalue
  rw [hdigits] at h
  exact ⟨hvalue, (cons.inj (append_cancel_left h)).2⟩

theorem markerName_eq (nonce : UInt64) (index : Nat) :
    markerName nonce index = "__velnor_masked_number_"
      ++ (toDigits 10 nonce.toNat ++ '_' :: (toDigits 10 index ++ '_' :: ['_'])) := by
  have hscore : "_" = ['_'] := by decide +kernel
  have hscores : "__" = ['_', '_'] := by decide +kernel
  unfold markerName
  rw [hscore, hscores, append_assoc, append_assoc, append_assoc]
  rfl

theorem marker_inj {nonce nonce' : UInt64} {index index' : Nat}
    (h : marker nonce index = marker nonce' index') : nonce = nonce' ∧ index = index' := by
  have hname := (cons.inj h).2
  rw [markerName_eq, markerName_eq] at hname
  obtain ⟨hnonce, hbehind⟩ := digits_score_inj (append_cancel_left hname)
  exact ⟨UInt64.toNat_inj.mp hnonce, (digits_score_inj hbehind).1⟩

theorem escapes_plain {s : Str} (h : ∀ c ∈ s, c ≠ '\\') : escapes s = s.map Escaped.char := by
  induction s with
  | nil => rfl
  | cons _ _ ih =>
    rw [forall_mem_cons] at h
    rw [escapes, ih h.2, map_cons]
    · exact fun _ _ _ _ _ heq _ => absurd heq h.1
    · exact fun _ _ heq _ => absurd heq h.1

theorem joinUnits_chars (s : Str) : joinUnits (s.map Escaped.char) = some s := by
  induction s with
  | nil => rfl
  | cons _ _ ih =>
    rw [map_cons, joinUnits, ih]
    rfl

/-- The token of a marker is read as the marker. -/
theorem unescape_markerToken (nonce : UInt64) (index : Nat) :
    unescape (markerToken nonce index).body = some (marker nonce index) := by
  have hplain := escapes_plain fun c hc => (markerName_plain nonce index c hc).2.2
  have hbody : (markerToken nonce index).body
      = '\\' :: 'u' :: '0' :: '0' :: '0' :: '0' :: markerName nonce index := by
    have hzeros : "0000" = ['0', '0', '0', '0'] := by decide +kernel
    exact congrArg (fun zeros => '\\' :: 'u' :: (zeros ++ markerName nonce index)) hzeros
  rw [unescape, hbody, escapes, hplain, marker]
  generalize markerName nonce index = name
  have hchars := joinUnits_chars name
  cases name with
  | nil => rfl
  | cons =>
    rw [joinUnits, if_neg (by decide), hchars]
    · rfl
    · exact fun _ _ heq => by cases heq

/-! ## A free nonce -/

variable (strings : List Str) (size : Nat) (nonce : UInt64)

/-- The nonce would be taken again: a string of the document is one of its markers. -/
def Collides : Prop := ∃ index < size, marker nonce index ∈ strings

/-- Each string stops one nonce, so one of the next is free. -/
theorem exists_free_nonce (h : strings.length < 2 ^ 64) :
    ∃ turns : Nat, ¬ Collides strings size (nonce + UInt64.ofNat turns) := by
  by_contra hall
  push Not at hall
  choose index hindex using fun turns => hall turns
  have hcard : strings.toFinset.card < (Finset.range (strings.length + 1)).card := by
    rw [Finset.card_range]
    exact lt_succ_of_le strings.toFinset_card_le
  obtain ⟨_, ha, _, hb, hne, heq⟩ := Finset.exists_ne_map_eq_of_card_lt_of_maps_to hcard
    (f := fun turns => marker (nonce + UInt64.ofNat turns) (index turns))
    (fun turns _ => mem_toFinset.mpr (hindex turns).2)
  have hnonce := congrArg UInt64.toNat (UInt64.add_left_inj nonce |>.mp
    ((UInt64.add_comm _ _).trans ((marker_inj heq).1.trans (UInt64.add_comm _ _))))
  rw [Finset.mem_range] at ha hb
  rw [UInt64.toNat_ofNat', UInt64.toNat_ofNat', mod_eq_of_lt (by omega),
    mod_eq_of_lt (by omega)] at hnonce
  exact hne hnonce

/-! ## The masked document -/

section Pieces

variable (count : Nat) (key : Key) (s : Str) (a b : List Piece)

@[simp] theorem bigIntegers_append : bigIntegers (a ++ b) = bigIntegers a ++ bigIntegers b := by
  induction a with
  | nil => rfl
  | cons piece _ ih =>
    cases piece with
    | number =>
      rw [cons_append, bigIntegers, bigIntegers, ih]
      split <;> rfl
    | string | plain => exact ih

@[simp] theorem bigIntegers_plains : bigIntegers (plains s) = [] := by
  induction s with
  | nil => rfl
  | cons _ _ ih => exact ih

@[simp] theorem maskPieces_append :
    maskPieces nonce count (a ++ b)
      = maskPieces nonce count a ++ maskPieces nonce (count + (bigIntegers a).length) b := by
  induction a generalizing count with
  | nil => rfl
  | cons piece _ ih =>
    cases piece with
    | number =>
      rw [cons_append, maskPieces, maskPieces, bigIntegers]
      split
      · rw [ih, cons_append, length_cons, add_assoc, add_comm 1]
      · rw [ih, cons_append]
    | string | plain =>
      rw [cons_append, maskPieces, maskPieces, bigIntegers, ih, cons_append]

@[simp] theorem maskPieces_plains : maskPieces nonce count (plains s) = plains s := by
  induction s with
  | nil => rfl
  | cons c s ih =>
    have hcons : plains (c :: s) = .plain c :: plains s := rfl
    rw [hcons, maskPieces, ih]

@[simp] theorem bigIntegers_key : bigIntegers key.pieces = [] := by
  simp [Key.pieces, bigIntegers]

@[simp] theorem maskPieces_key : maskPieces nonce count key.pieces = key.pieces := by
  simp [Key.pieces, maskPieces]

end Pieces

mutual

/-- The value with markers in it, `count` of them used before. -/
def Json.masked (nonce : UInt64) (count : Nat) : Json → Json
  | .number numeral =>
    if numeral.OutOfRange then .string (markerToken nonce count) else .number numeral
  | .array elements => .array (elements.masked nonce count)
  | .object members => .object (members.masked nonce count)
  | .null => .null
  | .bool value => .bool value
  | .string token => .string token
  | .emptyArray inside => .emptyArray inside
  | .emptyObject inside => .emptyObject inside

def Elements.masked (nonce : UInt64) (count : Nat) : Elements → Elements
  | .one before value after => .one before (value.masked nonce count) after
  | .more before value after others =>
    .more before (value.masked nonce count) after
      (others.masked nonce (count + (bigIntegers value.pieces).length))

def Members.masked (nonce : UInt64) (count : Nat) : Members → Members
  | .one key before value after => .one key before (value.masked nonce count) after
  | .more key before value after others =>
    .more key before (value.masked nonce count) after
      (others.masked nonce (count + (bigIntegers value.pieces).length))

end

def Document.masked (nonce : UInt64) (document : Document) : Document :=
  { document with value := document.value.masked nonce 0 }

section MaskedPieces

mutual

theorem Json.masked_pieces (count : Nat) :
    (value : Json) → (value.masked nonce count).pieces = maskPieces nonce count value.pieces
  | .null | .bool true | .bool false => (maskPieces_plains nonce count _).symm
  | .number numeral => by
    rw [masked, pieces, maskPieces, maskPieces, maskPieces]
    split <;> rfl
  | .string _ => rfl
  | .emptyArray _ | .emptyObject _ => by simp [masked, pieces, maskPieces]
  | .array elements => by
    simp [masked, pieces, maskPieces, elements.masked_pieces count]
  | .object members => by
    simp [masked, pieces, maskPieces, members.masked_pieces count]

theorem Elements.masked_pieces (count : Nat) : (elements : Elements) →
    (elements.masked nonce count).pieces = maskPieces nonce count elements.pieces
  | .one _ value _ => by simp [Elements.masked, Elements.pieces, value.masked_pieces count]
  | .more _ value _ others => by
    simp [Elements.masked, Elements.pieces, value.masked_pieces count, others.masked_pieces,
      maskPieces]

theorem Members.masked_pieces (count : Nat) : (members : Members) →
    (members.masked nonce count).pieces = maskPieces nonce count members.pieces
  | .one _ _ value _ => by simp [Members.masked, Members.pieces, value.masked_pieces count]
  | .more _ _ value _ others => by
    simp [Members.masked, Members.pieces, value.masked_pieces count, others.masked_pieces,
      maskPieces]

end

theorem Document.masked_pieces (document : Document) :
    (document.masked nonce).pieces = maskPieces nonce 0 document.pieces := by
  simp [Document.pieces, Document.masked, Json.masked_pieces]

end MaskedPieces

end Velnor.Context
