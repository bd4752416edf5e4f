/-
  String functions on lists of characters, with the meaning the Rust standard
  library gives them: whitespace is Unicode `White_Space`, letter case is
  ASCII only, a line ends at LF or CRLF.
-/
import Velnor.Text.Search

namespace Velnor

/-- A text, character by character. -/
abbrev Str := List Char

/-- Texts are written as string literals. -/
instance : Coe String Str := ⟨String.toList⟩

namespace Text

open List

/-! ## Bytes -/

/-- The UTF-8 encoding. -/
def utf8 (s : Str) : List UInt8 := s.flatMap String.utf8EncodeChar

/-- Its length, `str::len`. -/
def utf8Len (s : Str) : Nat := (s.map fun c => c.utf8Size).sum

/-! ## ASCII letters and digits -/

theorem isDigit_iff {c : Char} : c.isDigit = true ↔ 48 ≤ c.toNat ∧ c.toNat ≤ 57 := by
  simp only [Char.isDigit, Bool.and_eq_true, decide_eq_true_eq, ge_iff_le, UInt32.le_iff_toNat_le]
  exact Iff.rfl

theorem isAlpha_iff {c : Char} :
    c.isAlpha = true ↔ (65 ≤ c.toNat ∧ c.toNat ≤ 90) ∨ (97 ≤ c.toNat ∧ c.toNat ≤ 122) := by
  simp only [Char.isAlpha, Char.isUpper, Char.isLower, Bool.or_eq_true, Bool.and_eq_true,
    decide_eq_true_eq, ge_iff_le, UInt32.le_iff_toNat_le]
  exact Iff.rfl

instance lawfulBEqChars : LawfulBEq Str := instLawfulBEq

/-! ## Whitespace -/

/-- The property `White_Space`. -/
def isWhitespace (c : Char) : Bool :=
  let n := c.toNat
  (0x09 ≤ n && n ≤ 0x0D) || n == 0x20 || n == 0x85 || n == 0xA0 || n == 0x1680
    || (0x2000 ≤ n && n ≤ 0x200A) || n == 0x2028 || n == 0x2029 || n == 0x202F || n == 0x205F
    || n == 0x3000

def trimStart (s : Str) : Str := s.dropWhile isWhitespace

def trimEnd (s : Str) : Str := s.rdropWhile isWhitespace

def trim (s : Str) : Str := trimEnd (trimStart s)

/-! ## Runs -/

section Runs
variable {α : Type*} {p : α → Bool} {l a b : List α}

theorem drop_length_takeWhile (p : α → Bool) (l : List α) :
    l.drop (l.takeWhile p).length = l.dropWhile p := by
  have hsplit := congrArg (drop (l.takeWhile p).length)
    (takeWhile_append_dropWhile (p := p) (l := l))
  rw [drop_left] at hsplit
  exact hsplit.symm

theorem take_length_takeWhile (p : α → Bool) (l : List α) :
    l.take (l.takeWhile p).length = l.takeWhile p := by
  have hsplit := congrArg (take (l.takeWhile p).length)
    (takeWhile_append_dropWhile (p := p) (l := l))
  rw [take_left] at hsplit
  exact hsplit.symm

theorem take_one_add_run (p : α → Bool) (c : α) (l : List α) :
    (c :: l).take (1 + (l.takeWhile p).length) = c :: l.takeWhile p := by
  rw [Nat.add_comm, take_succ_cons, take_length_takeWhile]

theorem drop_one_add_run (p : α → Bool) (c : α) (l : List α) :
    (c :: l).drop (1 + (l.takeWhile p).length) = l.dropWhile p := by
  rw [Nat.add_comm, drop_succ_cons, drop_length_takeWhile]

/-- What is behind the longest run does not go on with it. -/
theorem head?_dropWhile_stops (p : α → Bool) (l : List α) :
    ∀ c ∈ (l.dropWhile p).head?, p c = false := by
  intro _ hc
  have hstop := head?_dropWhile_not p l
  rw [hc] at hstop
  exact hstop

theorem dropWhile_eq_self (hstop : ∀ c ∈ b.head?, p c = false) : b.dropWhile p = b := by
  cases b with
  | nil => rfl
  | cons c =>
    simp [hstop c rfl]

theorem takeWhile_append_stop (hrun : ∀ c ∈ a, p c = true) (hstop : ∀ c ∈ b.head?, p c = false) :
    (a ++ b).takeWhile p = a := by
  rw [takeWhile_append_of_pos hrun]
  have hnil : b.takeWhile p = [] := by
    cases b with
    | nil => rfl
    | cons c =>
      simp [hstop c rfl]
  rw [hnil, append_nil]

theorem takeWhile_append_stops (a : List α) (hstop : ∀ c ∈ b.head?, p c = false) :
    (a ++ b).takeWhile p = a.takeWhile p := by
  induction a with
  | nil =>
    have hnil := takeWhile_append_stop (fun _ hc => absurd hc not_mem_nil) hstop
    exact hnil
  | cons _ _ ih =>
    rw [cons_append, takeWhile_cons, takeWhile_cons, ih]

theorem dropWhile_append_stops (a : List α) (hstop : ∀ c ∈ b.head?, p c = false) :
    (a ++ b).dropWhile p = a.dropWhile p ++ b := by
  induction a with
  | nil => exact dropWhile_eq_self hstop
  | cons _ _ ih =>
    rw [cons_append, dropWhile_cons, dropWhile_cons, ih]
    split <;> rfl

end Runs

/-! ## Lines -/

/-- A CR in front of the LF belongs to the line ending. -/
def stripCr (line : Str) : Str :=
  if line.getLast? = some '\r' then line.dropLast else line

/-- The lines of a text.  What follows the last LF is a line unless it is
    empty, and keeps its CR. -/
def lines (s : Str) : List Str :=
  let pieces := s.splitOn '\n'
  let last := pieces.getLast?.getD []
  pieces.dropLast.map stripCr ++ if last = [] then [] else [last]

/-! ## Letter case -/

def toAsciiLowercase (s : Str) : Str := s.map Char.toLower

def toAsciiUppercase (s : Str) : Str := s.map Char.toUpper

def eqIgnoreAsciiCase (a b : Str) : Bool := decide (toAsciiLowercase a = toAsciiLowercase b)

theorem eqIgnoreAsciiCase_iff {a b : Str} :
    eqIgnoreAsciiCase a b = true ↔ toAsciiLowercase a = toAsciiLowercase b :=
  decide_eq_true_iff

theorem eqIgnoreAsciiCase_comm (a b : Str) : eqIgnoreAsciiCase a b = eqIgnoreAsciiCase b a := by
  simp only [eqIgnoreAsciiCase, eq_comm]

/-! ## Replacing -/

/-- The part of a replacement after `skip` more elements of an occurrence. -/
def replaceFrom {α : Type*} [DecidableEq α] (pat new : List α) : Nat → List α → List α
  | _, [] => []
  | skip + 1, _ :: s => replaceFrom pat new skip s
  | 0, c :: s =>
    if pat.isPrefixOf (c :: s) then new ++ replaceFrom pat new (pat.length - 1) s
    else c :: replaceFrom pat new 0 s

/-- Every occurrence of a non-empty pattern from the left, none overlapping. -/
def replace {α : Type*} [DecidableEq α] (pat new s : List α) : List α := replaceFrom pat new 0 s

/-! ## Integers -/

/-- The number a string of decimal digits names; `none` without a digit. -/
def parseDigits? (s : Str) : Option Nat :=
  if s ≠ [] ∧ s.all Char.isDigit then
    some (s.foldl (fun n c => n * 10 + (c.toNat - '0'.toNat)) 0)
  else none

/-- A decimal integer with an optional sign. -/
def parseInt? (s : Str) : Option Int :=
  match s with
  | '-' :: digits => (parseDigits? digits).map fun n => -(n : Int)
  | '+' :: digits => (parseDigits? digits).map Int.ofNat
  | digits => (parseDigits? digits).map Int.ofNat

def InI64 (n : Int) : Prop := -(2 ^ 63) ≤ n ∧ n < 2 ^ 63

instance (n : Int) : Decidable (InI64 n) := inferInstanceAs (Decidable (_ ∧ _))

/-- `parse::<i64>`: overflow is an error. -/
def parseI64? (s : Str) : Option Int := (parseInt? s).filter fun n => decide (InI64 n)

end Text

end Velnor
