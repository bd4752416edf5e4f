/-
  Context values (context_value.rs): trees with ordered object entries, an
  explicit lookup rule for each object, and integers beyond the machine range
  as their digits.  Strings are lists of characters.

  The simple uppercase mapping of Unicode comes from a library and is a
  parameter; nothing here depends on its values.
-/
import Velnor.Text.Str

namespace Velnor.Context

open Text

/-! ## Numbers -/

/-- IEEE-754 values which JSON numbers cannot represent. -/
inductive NonFinite where
  | nan | positiveInfinity | negativeInfinity
  deriving DecidableEq, Repr

/-- A JSON number as the JSON library keeps it: an unsigned integer, a negative
    integer, or the bits of a double. -/
inductive Number where
  | posInt (value : UInt64)
  | negInt (value : Int64)
  | float (bits : UInt64)
  deriving DecidableEq, Repr

namespace Number

def asI64 : Number → Option Int64
  | posInt value => if value.toNat < 2 ^ 63 then some value.toInt64 else none
  | negInt value => some value
  | float _ => none

def asU64 : Number → Option UInt64
  | posInt value => some value
  | negInt _ => none
  | float _ => none

end Number

def outOfRangeUnsignedInteger (value : Number) : Option UInt64 :=
  if value.asI64.isNone then value.asU64 else none

/-- The decimal digits of an integer. -/
def decimal (value : UInt64) : Str := Nat.toDigits 10 value.toNat

/-! ## Trees -/

inductive ContextValue where
  | null
  | undefined
  | bool (value : Bool)
  | number (value : Number)
  | bigInteger (digits : Str)
  | nonFinite (value : NonFinite)
  | string (value : Str)
  | array (values : List ContextValue)
  | construct (name : Str) (arguments : List ContextValue)
  | object (caseSensitive : Bool) (entries : List (Str × ContextValue))

/-- The strict schema that crosses the boundary. -/
inductive WireContextValue where
  | null
  | undefined
  | bool (value : Bool)
  | number (value : Number)
  | bigInteger (value : Str)
  | nonFinite (value : NonFinite)
  | string (value : Str)
  | array (value : List WireContextValue)
  | construct (name : Str) (arguments : List WireContextValue)
  | object (caseSensitive : Bool) (entries : List (Str × WireContextValue))

inductive ContextValueError where
  | duplicateObjectKey
  | invalidBigInteger
  deriving DecidableEq, Repr

/-! ## Comparers -/

section Comparers

variable (simpleUppercase : Char → Char)

/-- Dotless i and long s stay as they are. -/
def simpleOrdinalUppercase (character : Char) : Char :=
  if character = 'ı' ∨ character = 'ſ' then character else simpleUppercase character

def ordinalIgnoreCaseCmp : Str → Str → Ordering
  | [], [] => .eq
  | [], _ :: _ => .lt
  | _ :: _, [] => .gt
  | left :: lefts, right :: rights =>
    let order := compare (simpleOrdinalUppercase simpleUppercase left).toNat
      (simpleOrdinalUppercase simpleUppercase right).toNat
    if order ≠ .eq then order else ordinalIgnoreCaseCmp lefts rights

def ordinalIgnoreCaseEq (left right : Str) : Bool :=
  ordinalIgnoreCaseCmp simpleUppercase left right == .eq

/-- The lookup rule of an object. -/
def sameKey (caseSensitive : Bool) (previous key : Str) : Bool :=
  if caseSensitive then previous == key else ordinalIgnoreCaseEq simpleUppercase previous key

/-- Each key against the keys before it. -/
def validateKeysAfter (caseSensitive : Bool) : List Str → List Str → Except ContextValueError Unit
  | _, [] => .ok ()
  | previous, key :: keys =>
    if previous.any fun name => sameKey simpleUppercase caseSensitive name key then
      .error .duplicateObjectKey
    else validateKeysAfter caseSensitive (previous ++ [key]) keys

def validateUniqueKeys {α : Type} (caseSensitive : Bool) (entries : List (Str × α)) :
    Except ContextValueError Unit :=
  validateKeysAfter simpleUppercase caseSensitive [] (entries.map (·.1))

end Comparers

/-! ## Validation -/

def maxBigIntegerChars : Nat := 380

def validateBigInteger (value : Str) : Except ContextValueError Unit :=
  let digits := if value.head? = some '-' then value.tail else value
  if utf8Len value > maxBigIntegerChars ∨ digits = [] ∨ ¬ digits.all Char.isDigit
      ∨ (digits.length > 1 ∧ digits.head? = some '0') then
    .error .invalidBigInteger
  else if (parseI64? value).isSome then .error .invalidBigInteger
  else .ok ()

section Wire

variable (simpleUppercase : Char → Char)

mutual

/-- Comparer uniqueness and numeric representations throughout the tree. -/
def validate : ContextValue → Except ContextValueError Unit
  | .array values => validateAll values
  | .construct _ arguments => validateAll arguments
  | .object caseSensitive entries => do
    validateUniqueKeys simpleUppercase caseSensitive entries
    validateEntries entries
  | .bigInteger digits => validateBigInteger digits
  | .null => .ok ()
  | .undefined => .ok ()
  | .bool _ => .ok ()
  | .number _ => .ok ()
  | .nonFinite _ => .ok ()
  | .string _ => .ok ()

def validateAll : List ContextValue → Except ContextValueError Unit
  | [] => .ok ()
  | value :: values => do
    validate value
    validateAll values

def validateEntries : List (Str × ContextValue) → Except ContextValueError Unit
  | [] => .ok ()
  | (_, value) :: entries => do
    validate value
    validateEntries entries

end

def bigInteger (value : Str) : Except ContextValueError ContextValue := do
  validateBigInteger value
  return .bigInteger value

def tryObject (caseSensitive : Bool) (entries : List (Str × ContextValue)) :
    Except ContextValueError ContextValue := do
  validateUniqueKeys simpleUppercase caseSensitive entries
  validateEntries simpleUppercase entries
  return .object caseSensitive entries

/-! ## The wire form -/

mutual

def tryFromWire : WireContextValue → Except ContextValueError ContextValue
  | .null => .ok .null
  | .undefined => .ok .undefined
  | .bool value => .ok (.bool value)
  | .number value =>
    match outOfRangeUnsignedInteger value with
    | some integer => bigInteger (decimal integer)
    | none => .ok (.number value)
  | .bigInteger value => bigInteger value
  | .nonFinite value => .ok (.nonFinite value)
  | .string value => .ok (.string value)
  | .array value => do
    let values ← tryFromWireAll value
    return .array values
  | .construct name arguments => do
    let arguments ← tryFromWireAll arguments
    return .construct name arguments
  | .object caseSensitive entries => do
    let entries ← tryFromWireEntries entries
    tryObject simpleUppercase caseSensitive entries

def tryFromWireAll : List WireContextValue → Except ContextValueError (List ContextValue)
  | [] => .ok []
  | value :: values => do
    let value ← tryFromWire value
    let values ← tryFromWireAll values
    return value :: values

def tryFromWireEntries : List (Str × WireContextValue) →
    Except ContextValueError (List (Str × ContextValue))
  | [] => .ok []
  | (key, value) :: entries => do
    let value ← tryFromWire value
    let entries ← tryFromWireEntries entries
    return (key, value) :: entries

end

mutual

def tryToWire : ContextValue → Except ContextValueError WireContextValue
  | .null => .ok .null
  | .undefined => .ok .undefined
  | .bool value => .ok (.bool value)
  | .number value =>
    match outOfRangeUnsignedInteger value with
    | some integer => .ok (.bigInteger (decimal integer))
    | none => .ok (.number value)
  | .bigInteger digits => do
    validateBigInteger digits
    return .bigInteger digits
  | .nonFinite value => .ok (.nonFinite value)
  | .string value => .ok (.string value)
  | .array values => do
    let values ← tryToWireAll values
    return .array values
  | .construct name arguments => do
    let arguments ← tryToWireAll arguments
    return .construct name arguments
  | .object caseSensitive entries => do
    validateUniqueKeys simpleUppercase caseSensitive entries
    let entries ← tryToWireEntries entries
    return .object caseSensitive entries

def tryToWireAll : List ContextValue → Except ContextValueError (List WireContextValue)
  | [] => .ok []
  | value :: values => do
    let value ← tryToWire value
    let values ← tryToWireAll values
    return value :: values

def tryToWireEntries : List (Str × ContextValue) →
    Except ContextValueError (List (Str × WireContextValue))
  | [] => .ok []
  | (key, value) :: entries => do
    let value ← tryToWire value
    let entries ← tryToWireEntries entries
    return (key, value) :: entries

end

end Wire

end Velnor.Context
