/-
  The lossless reader of plain JSON (context_value.rs).  Numbers that the JSON
  library would reject or round are replaced by marker strings before the
  library sees the text, and the markers are taken back in the tree it returns.

  The text is a list of characters: every byte the scanner compares with is
  ASCII, and such a byte is no part of another character.  The library is the
  parameter `read`.
-/
import Velnor.Context.Value
import Velnor.Text.Double

namespace Velnor.Context

open Text

/-- JSON tree that retains the order of object members. -/
inductive OrderedJsonValue where
  | null
  | bool (value : Bool)
  | number (value : Number)
  | string (value : Str)
  | array (values : List OrderedJsonValue)
  | object (entries : List (Str × OrderedJsonValue))

inductive MaskedJsonNumber where
  | bigInteger (digits : Str)
  | nonFinite (value : NonFinite)
  deriving DecidableEq, Repr

inductive JsonObjectComparer where
  | ordinalIgnoreCase | caseSensitive | rootCaseInsensitive
  deriving DecidableEq, Repr

def JsonObjectComparer.descendant : JsonObjectComparer → JsonObjectComparer
  | ordinalIgnoreCase => ordinalIgnoreCase
  | caseSensitive | rootCaseInsensitive => caseSensitive

/-- The lookup rule of an object read with the comparer. -/
def JsonObjectComparer.isCaseSensitive (comparer : JsonObjectComparer) (isRoot : Bool) : Bool :=
  match comparer with
  | ordinalIgnoreCase => false
  | caseSensitive => true
  | rootCaseInsensitive => !isRoot

/-! ## Scanning a number -/

/-- The digits behind the first `n` characters: the length with them, and what
    follows.  There is at least one. -/
def scanDigits (n : Nat) (s : Str) : Option (Nat × Str) :=
  if s.takeWhile Char.isDigit = [] then none
  else some (n + (s.takeWhile Char.isDigit).length, s.dropWhile Char.isDigit)

/-- The length of an optional sign. -/
def signLength : Str → Nat
  | [] => 0
  | c :: _ => if c = '+' ∨ c = '-' then 1 else 0

/-- The exponent behind the first `n` characters. -/
def scanExponent (n : Nat) (isInteger : Bool) : Str → Option (Nat × Bool)
  | [] => some (n, isInteger)
  | c :: s =>
    if c = 'e' ∨ c = 'E' then
      (scanDigits (n + 1 + signLength s) (s.drop (signLength s))).map fun found =>
        (found.1, false)
    else some (n, isInteger)

/-- The fraction behind the first `n` characters. -/
def scanFraction (n : Nat) : Str → Option (Nat × Bool)
  | [] => scanExponent n true []
  | c :: s =>
    if c = '.' then
      (scanDigits (n + 1) s).bind fun found => scanExponent found.1 false found.2
    else scanExponent n true (c :: s)

/-- The whole part behind the first `n` characters; a zero stands alone. -/
def scanWhole (n : Nat) : Str → Option (Nat × Bool)
  | [] => none
  | c :: s =>
    if c = '0' then scanFraction (n + 1) s
    else if c.isDigit then
      scanFraction (n + 1 + (s.takeWhile Char.isDigit).length) (s.dropWhile Char.isDigit)
    else none

/-- The length of the number at the beginning, and whether it is an integer. -/
def scanJsonNumber : Str → Option (Nat × Bool)
  | [] => none
  | c :: s => if c = '-' then scanWhole 1 s else scanWhole 0 (c :: s)

def isOutOfRangeInteger (value : Str) : Bool := (parseI64? value).isNone

def overflowingFloat (value : Str) : Option NonFinite :=
  match parseF64? value with
  | some (.infinite true) => some .negativeInfinity
  | some (.infinite false) => some .positiveInfinity
  | _ => none

/-! ## Masking -/

/-- What a number is masked as; `none` leaves it to the library. -/
def maskedNumber (lexeme : Str) (isInteger : Bool) : Option MaskedJsonNumber :=
  if isInteger = true ∧ isOutOfRangeInteger lexeme = true then some (.bigInteger lexeme)
  else if isInteger = false then (overflowingFloat lexeme).map .nonFinite
  else none

/-- The number to mask at the beginning, with its length. -/
def maskAt : Str → Option (Nat × MaskedJsonNumber)
  | [] => none
  | c :: s =>
    if c = '-' ∨ c.isDigit = true then
      (scanJsonNumber (c :: s)).bind fun found =>
        (maskedNumber ((c :: s).take found.1) found.2).map fun number => (found.1, number)
    else none

variable (nonce : UInt64) (index : Nat)

/-- What the markers of a text with the nonce have in common. -/
def markerName : Str :=
  "__velnor_masked_number_" ++ Nat.toDigits 10 nonce.toNat ++ "_" ++ Nat.toDigits 10 index ++ "__"

/-- The string that stands for a masked number. -/
def marker : Str := '\x00' :: markerName nonce index

/-- The marker between quotes, as it is written into the text. -/
def encodedMarker : Str := "\"\\u0000" ++ markerName nonce index ++ "\""

/-- The length of a string behind its opening quote, with the closing one. -/
def stringLength : Str → Nat
  | [] => 0
  | '\\' :: [] => 1
  | '\\' :: _ :: s => stringLength s + 2
  | '"' :: _ => 1
  | _ :: s => stringLength s + 1

def isJsonWhitespace (c : Char) : Bool := c == ' ' || c == '\t' || c == '\r' || c == '\n'

def nextNonWhitespace (s : Str) : Option Char := (s.dropWhile isJsonWhitespace).head?

/-- The masking of a text, of which `skip` characters are already done, with
    `count` numbers masked in front of it. -/
def maskFrom (nonce : UInt64) : Nat → Nat → Str → Str × List (Str × MaskedJsonNumber)
  | _, _, [] => ([], [])
  | count, skip + 1, _ :: s => maskFrom nonce count skip s
  | count, 0, c :: s =>
    if c = '"' then
      let n := stringLength s
      let (masked, numbers) := maskFrom nonce count n s
      (c :: s.take n ++ masked, numbers)
    else
      match maskAt (c :: s) with
      | some (n, number) =>
        -- in front of a colon the number is no value
        if nextNonWhitespace ((c :: s).drop n) = some ':' then
          let (masked, numbers) := maskFrom nonce count (n - 1) s
          ((c :: s).take n ++ masked, numbers)
        else
          let (masked, numbers) := maskFrom nonce (count + 1) (n - 1) s
          (encodedMarker nonce count ++ masked, (marker nonce count, number) :: numbers)
      | none =>
        let (masked, numbers) := maskFrom nonce count 0 s
        (c :: masked, numbers)

def maskJsonNumbers (json : Str) (nonce : UInt64) :
    Str × List (Str × MaskedJsonNumber) := maskFrom nonce 0 0 json

/-! ## Taking the markers back -/

mutual

def countOrderedStrings (target : Str) : OrderedJsonValue → Nat
  | .string value => if value = target then 1 else 0
  | .array values => countOrderedStringsAll target values
  | .object entries => countOrderedStringsEntries target entries
  | .null | .bool _ | .number _ => 0

def countOrderedStringsAll (target : Str) : List OrderedJsonValue → Nat
  | [] => 0
  | value :: values => countOrderedStrings target value + countOrderedStringsAll target values

def countOrderedStringsEntries (target : Str) : List (Str × OrderedJsonValue) → Nat
  | [] => 0
  | (_, value) :: entries =>
    countOrderedStrings target value + countOrderedStringsEntries target entries

end

section
variable (simpleUppercase : Char → Char) (maskedNumbers : List (Str × MaskedJsonNumber))

mutual

def intoContextValue (comparer : JsonObjectComparer) (isRoot : Bool) :
    OrderedJsonValue → Except ContextValueError ContextValue
  | .null => .ok .null
  | .bool value => .ok (.bool value)
  | .number value => .ok (.number value)
  | .string value =>
    match maskedNumbers.find? fun number => number.1 == value with
    | some (_, .bigInteger digits) => bigInteger digits
    | some (_, .nonFinite value) => .ok (.nonFinite value)
    | none => .ok (.string value)
  | .array values => do
    let values ← intoContextValues comparer.descendant values
    return .array values
  | .object entries => do
    let entries ← intoContextEntries comparer.descendant entries
    tryObject simpleUppercase (comparer.isCaseSensitive isRoot) entries

def intoContextValues (comparer : JsonObjectComparer) :
    List OrderedJsonValue → Except ContextValueError (List ContextValue)
  | [] => .ok []
  | value :: values => do
    let value ← intoContextValue comparer false value
    let values ← intoContextValues comparer values
    return value :: values

def intoContextEntries (comparer : JsonObjectComparer) :
    List (Str × OrderedJsonValue) → Except ContextValueError (List (Str × ContextValue))
  | [] => .ok []
  | (key, value) :: entries => do
    let value ← intoContextValue comparer false value
    let entries ← intoContextEntries comparer entries
    return (key, value) :: entries

end

end

/-! ## The reader -/

inductive JsonError where
  /-- The library does not take the text. -/
  | syntaxError
  /-- "out-of-range numeric token is only valid in a JSON value position" -/
  | misplacedNumber
  | context (error : ContextValueError)
  deriving DecidableEq, Repr

/-- The loop over the nonces, for `fuel` turns.  A text that holds a string like
    a marker is masked again with the next nonce. -/
def parseOrderedJsonWithNonce (simpleUppercase : Char → Char)
    (read : Str → Option OrderedJsonValue) (json : Str)
    (comparer : JsonObjectComparer) : Nat → UInt64 → Option (Except JsonError ContextValue)
  | 0, _ => none
  | fuel + 1, nonce =>
    let (masked, maskedNumbers) := maskJsonNumbers json nonce
    match read masked with
    | none => some (.error .syntaxError)
    | some value =>
      let occurrences := maskedNumbers.map fun number => countOrderedStrings number.1 value
      if 0 ∈ occurrences then some (.error .misplacedNumber)
      else if occurrences.any (· > 1) then
        parseOrderedJsonWithNonce simpleUppercase read json comparer fuel (nonce + 1)
      else
        some ((intoContextValue simpleUppercase maskedNumbers comparer true value).mapError
          .context)

end Velnor.Context
