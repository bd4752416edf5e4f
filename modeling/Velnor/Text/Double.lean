/-
  Doubles as far as reading one from a decimal goes: a finite double is kept as
  the decimal it is nearest to, and a decimal at or beyond the rounding boundary
  `2^1024 - 2^970` is an infinity.
-/
import Velnor.Text.Str

namespace Velnor.Text

inductive Double where
  | nan
  | infinite (negative : Bool)
  | finite (negative : Bool) (digits : Nat) (exponent : Int)
  deriving DecidableEq, Repr

/-- `digits * 10 ^ exponent` is rounded to infinity.  Where the exponent alone
    decides, the power is not computed. -/
def overflows (digits : Nat) (exponent : Int) : Bool :=
  if digits = 0 then false
  else if 309 ≤ exponent then true
  else if 0 ≤ exponent then decide (2 ^ 1024 - 2 ^ 970 ≤ digits * 10 ^ exponent.toNat)
  else if (Nat.toDigits 10 digits).length ≤ 309 then false
  else decide ((2 ^ 1024 - 2 ^ 970) * 10 ^ (-exponent).toNat ≤ digits)

def Double.ofDecimal (negative : Bool) (digits : Nat) (exponent : Int) : Double :=
  if overflows digits exponent then .infinite negative else .finite negative digits exponent

/-- The value of a string of digits. -/
def digitsValue (s : Str) : Nat := Nat.ofDigitChars 10 s 0

/-- An optional sign: whether it is a minus, and what is behind it. -/
def splitSign : Str → Bool × Str
  | '-' :: s => (true, s)
  | '+' :: s => (false, s)
  | s => (false, s)

/-- An exponent part, or nothing. -/
def parseExponent? (s : Str) : Option Int :=
  match s with
  | [] => some 0
  | c :: s =>
    if c = 'e' ∨ c = 'E' then
      let (negative, digits) := splitSign s
      (parseDigits? digits).map fun n => if negative then -(n : Int) else n
    else none

/-- `parse::<f64>` on a decimal: digits with at most one point and at least one
    digit, then an optional exponent. -/
def parseF64? (s : Str) : Option Double :=
  let (negative, s) := splitSign s
  let whole := s.takeWhile Char.isDigit
  let behind := s.dropWhile Char.isDigit
  let (fraction, behind) :=
    if behind.head? = some '.' then
      (behind.tail.takeWhile Char.isDigit, behind.tail.dropWhile Char.isDigit)
    else ([], behind)
  if whole = [] ∧ fraction = [] then none
  else (parseExponent? behind).map fun exponent =>
    Double.ofDecimal negative (digitsValue (whole ++ fraction)) (exponent - fraction.length)

example : parseF64? "1.5e308" = some (.finite false 15 307) := by decide +kernel

example : parseF64? "-2e308" = some (.infinite true) := by decide +kernel

end Velnor.Text
