/-
  Decimal numerals: what a number is written as is read back as that number,
  has no leading zero, and is one byte for each digit.
-/
import Velnor.Text.Str

namespace Velnor.Text

open Nat

variable {n : Nat}

theorem parseDigits?_eq_some_iff {s : Str} :
    parseDigits? s = some n ↔ s ≠ [] ∧ (∀ c ∈ s, c.isDigit = true) ∧ ofDigitChars 10 s 0 = n := by
  have hfold : s.foldl (fun n c => n * 10 + (c.toNat - '0'.toNat)) 0 = Nat.ofDigitChars 10 s 0 := by
    simp only [Nat.ofDigitChars, Nat.mul_comm]
  rw [parseDigits?, hfold, ← List.all_eq_true, ← and_assoc]
  split_ifs with h
  · rw [and_iff_right h, Option.some_inj]
  constructor
  · intro hnone
    cases hnone
  · rintro ⟨hs, -⟩
    exact absurd hs h

theorem isDigit_of_mem_toDigits {c : Char} (h : c ∈ toDigits 10 n) : c.isDigit = true :=
  Nat.isDigit_of_mem_toDigits (by decide) (by decide) h

theorem parseDigits?_toDigits (n : Nat) : parseDigits? (toDigits 10 n) = some n :=
  parseDigits?_eq_some_iff.mpr ⟨toDigits_ne_nil, fun _ => isDigit_of_mem_toDigits,
    ofDigitChars_toDigits (by decide) (by decide)⟩

/-- Digits are read without a sign. -/
theorem parseInt?_of_digits {s : Str} (h : ∀ c ∈ s, c.isDigit = true) :
    parseInt? s = (parseDigits? s).map Int.ofNat := by
  cases s with
  | nil => rfl
  | cons c =>
    have hc := h c List.mem_cons_self
    unfold parseInt?
    split
    next heq =>
      cases heq
      cases hc
    next heq =>
      cases heq
      cases hc
    next => rfl

theorem parseInt?_toDigits (n : Nat) : parseInt? (toDigits 10 n) = some (n : Int) := by
  rw [parseInt?_of_digits fun _ => isDigit_of_mem_toDigits, parseDigits?_toDigits]
  rfl

theorem parseI64?_toDigits_of_le (h : 2 ^ 63 ≤ n) : parseI64? (toDigits 10 n) = none := by
  rw [parseI64?, parseInt?_toDigits, Option.filter_some, if_neg]
  rw [decide_eq_true_iff, InI64]
  omega

/-- Only zero is written with a zero first. -/
theorem head?_toDigits_ne_zero (h : 0 < n) : (toDigits 10 n).head? ≠ some '0' := by
  induction n using Nat.strongRecOn with
  | ind n ih =>
    rw [toDigits_eq_if (by decide)]
    split_ifs with hlt
    · have hdigit : ∀ d < 10, 0 < d → [digitChar d].head? ≠ some '0' := by decide
      exact hdigit n hlt h
    · have hdiv : 0 < n / 10 := by omega
      rw [List.head?_append_of_ne_nil _ toDigits_ne_nil]
      exact ih (n / 10) (by omega) hdiv

theorem utf8Size_of_isDigit {c : Char} (h : c.isDigit = true) : c.utf8Size = 1 := by
  rw [Char.utf8Size_eq_one_iff]
  rw [Char.isDigit, Bool.and_eq_true, decide_eq_true_iff, decide_eq_true_iff] at h
  exact UInt32.le_trans h.2 (by decide)

end Velnor.Text
