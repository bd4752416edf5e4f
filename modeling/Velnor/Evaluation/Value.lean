/-
  The values that workflow expressions evaluate to, and how they compare
  (expression/value.rs).

  An array and an object know the allocation that holds their items: a clone
  shares it, and two of them are equal when it is the same.  What is used of
  `f64` is a parameter.  Its order is any preorder, so two zeros can be equal and
  still print differently.
-/
import Velnor.Context.OrdinalCase
import Velnor.Expression.Syntax

namespace Velnor.Evaluation

open Context

inductive ValueKind where
  | array | boolean | null | number | object | string
  deriving DecidableEq, Repr

def ValueKind.asStr : ValueKind → Str
  | array => "Array"
  | boolean => "Boolean"
  | null => "Null"
  | number => "Number"
  | object => "Object"
  | string => "String"

inductive Value (N : Type) where
  | null
  | boolean (value : Bool)
  | number (value : N)
  | string (value : Str)
  | array (storage : Nat) (filtered : Bool) (items : List (Value N))
  | object (storage : Nat) (caseSensitive : Bool) (entries : List (Str × Value N))

/-- What the JSON library reads from a text. -/
inductive Document (N : Type) where
  | null
  | bool (value : Bool)
  | number (value : N)
  | string (value : Str)
  | array (items : List (Document N))
  | object (entries : List (Str × Document N))

/-- What comes from libraries: `f64` and its conversions, the simple uppercase
    mapping of Unicode, and JSON. -/
structure Library (N : Type) where
  zero : N
  one : N
  nan : N
  isNan : N → Bool
  ofDouble : Text.Double → N
  parseNumber : Str → N
  formatNumber : N → Str
  floor : N → N
  /-- `f64::from(i32::MAX)`. -/
  maxIndex : N
  /-- The cast to `usize`. -/
  toUsize : N → Nat
  simpleUppercase : Char → Char
  /-- A string as a JSON text. -/
  jsonString : Str → Str
  fromStr : Str → Except Str (Document N)

namespace Value

section

variable {N : Type} (lib : Library N)

def kind : Value N → ValueKind
  | null => .null
  | boolean _ => .boolean
  | number _ => .number
  | string _ => .string
  | array .. => .array
  | object .. => .object

def isPrimitive : Value N → Bool
  | array .. | object .. => false
  | _ => true

def convertToString : Value N → Str
  | null => []
  | boolean value => if value then "true" else "false"
  | number value => lib.formatNumber value
  | string value => value
  | other => other.kind.asStr

def convertToNumber : Value N → N
  | null => lib.zero
  | boolean value => if value then lib.one else lib.zero
  | number value => value
  | string value => lib.parseNumber value
  | array .. | object .. => lib.nan

/-! ## Coercion -/

/-- A Boolean or null, which is compared as its number with values of other
    kinds. -/
def isCoerced (value : Value N) : Bool := value.kind = .boolean ∨ value.kind = .null

/-- Arrays and objects are not coerced to primitives. -/
def coerceTypes (left right : Value N) : Value N × Value N :=
  if left.kind = right.kind then (left, right)
  else if left.kind = .number ∧ right.kind = .string then
    (left, number (right.convertToNumber lib))
  else if left.kind = .string ∧ right.kind = .number then
    (number (left.convertToNumber lib), right)
  else if left.isCoerced then coerceTypes (number (left.convertToNumber lib)) right
  else if right.isCoerced then coerceTypes left (number (right.convertToNumber lib))
  else (left, right)
  termination_by left.isCoerced.toNat + right.isCoerced.toNat
  decreasing_by all_goals simp_all [isCoerced, kind]

/-- The order of two values does not matter to what each is coerced to. -/
theorem coerceTypes_swap (a b : Value N) : coerceTypes lib b a = (coerceTypes lib a b).swap := by
  cases a <;> cases b <;> simp [coerceTypes, kind, isCoerced, convertToNumber]

/-! ## Comparison -/

variable [Preorder N] [DecidableLE N] [DecidableLT N]

/-- `==` of two numbers. -/
def equalNumbers (left right : N) : Bool := decide (left ≤ right ∧ right ≤ left)

def isFalsy : Value N → Bool
  | null => true
  | boolean value => !value
  | number value => equalNumbers value lib.zero || lib.isNan value
  | string value => value.isEmpty
  | array .. | object .. => false

def isTruthy (value : Value N) : Bool := !value.isFalsy lib

variable (left right : Value N)

def abstractEqual : Bool :=
  match coerceTypes lib left right with
  | (null, null) => true
  | (number left, number right) =>
    if lib.isNan left || lib.isNan right then false else equalNumbers left right
  | (string left, string right) => ordinalIgnoreCaseEq lib.simpleUppercase left right
  | (boolean left, boolean right) => left == right
  | (object left _ _, object right _ _) => left == right
  | (array left _ _, array right _ _) => left == right
  | _ => false

def abstractNotEqual : Bool := !abstractEqual lib left right

def abstractGreaterThan : Bool :=
  match coerceTypes lib left right with
  | (number left, number right) =>
    if lib.isNan left || lib.isNan right then false else decide (left > right)
  | (string left, string right) => ordinalIgnoreCaseCmp lib.simpleUppercase left right == .gt
  | (boolean left, boolean right) => left && !right
  | _ => false

def abstractLessThan : Bool :=
  match coerceTypes lib left right with
  | (number left, number right) =>
    if lib.isNan left || lib.isNan right then false else decide (left < right)
  | (string left, string right) => ordinalIgnoreCaseCmp lib.simpleUppercase left right == .lt
  | (boolean left, boolean right) => !left && right
  | _ => false

def abstractGreaterThanOrEqual : Bool :=
  abstractEqual lib left right || abstractGreaterThan lib left right

def abstractLessThanOrEqual : Bool :=
  abstractEqual lib left right || abstractLessThan lib left right

omit [DecidableLT N] in
theorem abstractEqual_comm (a b : Value N) : abstractEqual lib b a = abstractEqual lib a b := by
  unfold abstractEqual ordinalIgnoreCaseEq
  rw [coerceTypes_swap lib a b]
  obtain ⟨left, right⟩ := coerceTypes lib a b
  cases left <;> cases right <;> simp [equalNumbers, or_comm, and_comm, BEq.comm]
  case string.string left right =>
    rw [ordinalIgnoreCaseCmp_swap _ left right]
    cases ordinalIgnoreCaseCmp _ left right <;> decide

omit [DecidableLE N] in
theorem abstractLessThan_swap (a b : Value N) :
    abstractLessThan lib b a = abstractGreaterThan lib a b := by
  unfold abstractGreaterThan abstractLessThan
  rw [coerceTypes_swap lib a b]
  obtain ⟨left, right⟩ := coerceTypes lib a b
  cases left <;> cases right <;> simp [or_comm, Bool.and_comm]
  case string.string left right =>
    rw [ordinalIgnoreCaseCmp_swap _ left right]
    cases ordinalIgnoreCaseCmp _ left right <;> decide

theorem not_equal_of_lessThan {a b : Value N} (h : abstractLessThan lib a b = true) :
    abstractEqual lib a b = false ∧ abstractGreaterThan lib a b = false := by
  unfold abstractLessThan at h
  unfold abstractEqual abstractGreaterThan ordinalIgnoreCaseEq
  generalize coerceTypes lib a b = coerced at h ⊢
  split at h
  case h_1 left right =>
    simp at h
    simp [equalNumbers, h, h.2.not_gt, h.2.not_ge]
  case h_2 | h_3 => simp_all
  case h_4 => cases h

/-- Equality is symmetric, "greater" is "less" the other way round, at most one
    of "less", "equal" and "greater" holds, and "greater or equal" is the
    disjunction. -/
theorem comparison_laws (a b : Value N) :
    abstractEqual lib a b = abstractEqual lib b a
      ∧ abstractGreaterThan lib a b = abstractLessThan lib b a
      ∧ ¬(abstractLessThan lib a b = true ∧ abstractEqual lib a b = true)
      ∧ ¬(abstractEqual lib a b = true ∧ abstractGreaterThan lib a b = true)
      ∧ ¬(abstractLessThan lib a b = true ∧ abstractGreaterThan lib a b = true)
      ∧ (abstractGreaterThanOrEqual lib a b = true ↔
          abstractEqual lib a b = true ∨ abstractGreaterThan lib a b = true) := by
  have hequal := abstractEqual_comm lib b a
  have hswap := (abstractLessThan_swap lib a b).symm
  refine ⟨hequal, hswap, ?_, ?_, ?_, Bool.or_eq_true_iff ..⟩
  · rintro ⟨hless, h⟩
    simp [(not_equal_of_lessThan lib hless).1] at h
  · rintro ⟨h, hgreater⟩
    rw [hswap] at hgreater
    rw [hequal, (not_equal_of_lessThan lib hgreater).1] at h
    cases h
  · rintro ⟨hless, h⟩
    simp [(not_equal_of_lessThan lib hless).2] at h

end

end Value

end Velnor.Evaluation
